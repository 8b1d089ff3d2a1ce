import Arvik.Foundation.Text

/-!
# Media types with parameters

A MIME content type: a type and a subtype, and parameters behind `;`. The value of a parameter is a
token or a quoted string, in which separators are ordinary characters and a backslash takes the next
character as it is. A content type is given by its parts, which carry the grammar, so that what
`render` writes down is well formed and `text` is what its values mean.

Cutting the text at every `;` gives one piece for each parameter as long as no quoted string has a
`;` (`splitOn_render`). What else the cutting gives are the `strays` of a value, the pieces that
begin inside its quotes.

A quoted string is a list of characters each of which says how it is written, plainly or behind a
backslash. Its text and its rendering are then two maps over the same list, and a fact about the
difference between them, such as that a text is not longer than what is written for it, is an
induction on it. White space between the parts is free and belongs to the parts, so two renderings
of one content type are two values here.
-/

namespace MediaType

/-! ### Grammar -/

/-- The token characters: visible ASCII without separators. -/
def isTokenChar (c : Char) : Bool :=
  Text.isAsciiGraphic c && c ∉ "()<>@,;:\\\"/[]?=".toList

/-- A blank or a tab. -/
def isBlank (c : Char) : Bool :=
  c = ' ' || c = '\t'

/-- What stands for one character of a quoted string. -/
inductive QuotedChar
  | plain (c : Char) (h : c ≠ '"' ∧ c ≠ '\\')
  /-- The character behind a backslash. -/
  | pair (c : Char)
  deriving DecidableEq

namespace QuotedChar

def char : QuotedChar → Char
  | plain c _ => c
  | pair c => c

def render : QuotedChar → Str
  | plain c _ => [c]
  | pair c => ['\\', c]

end QuotedChar

/-- The value of a parameter. No value at all is taken for an empty token. -/
inductive Value
  | token (s : Str) (h : s.all isTokenChar)
  | quoted (body : List QuotedChar)
  deriving DecidableEq

namespace Value

/-- The value that is meant. -/
def text : Value → Str
  | token s _ => s
  | quoted body => body.map QuotedChar.char

/-- The value as it is written, without the quotes. -/
def raw : Value → Str
  | token s _ => s
  | quoted body => body.flatMap QuotedChar.render

def render : Value → Str
  | token s _ => s
  | quoted body => '"' :: (body.flatMap QuotedChar.render ++ ['"'])

/-- A quoted string that means a text. -/
def quote (s : Str) : Value :=
  quoted (s.map fun c ↦ if h : c ≠ '"' ∧ c ≠ '\\' then .plain c h else .pair c)

/-- The pieces of a value, cut at each `;`, that begin inside it. -/
def strays (self : Value) : List Str :=
  (self.render.splitOn ';').tail

end Value

/-- A parameter, with the white space behind the `;` before it and before the one after it. -/
structure Parameter where
  lead : Str := [' ']
  name : Str
  value : Value
  trail : Str := []
  lead_blank : lead.all isBlank := by decide
  name_ne_nil : name ≠ [] := by decide
  name_token : name.all isTokenChar := by decide
  trail_blank : trail.all isBlank := by decide

namespace Parameter

def render (self : Parameter) : Str :=
  self.lead ++ (self.name ++ '=' :: self.value.render) ++ self.trail

/-- Names of parameters are compared without regard to case. -/
def isNamed (name : Str) (self : Parameter) : Bool :=
  Text.eqIgnoreAsciiCase self.name name

end Parameter

/-- A content type. -/
structure ContentType where
  type : Str
  subtype : Str
  trail : Str := []
  params : List Parameter := []
  type_token : type.all isTokenChar := by decide
  subtype_token : subtype.all isTokenChar := by decide
  type_ne_nil : type ≠ [] := by decide
  subtype_ne_nil : subtype ≠ [] := by decide
  trail_blank : trail.all isBlank := by decide

namespace ContentType

/-- The type and the subtype. -/
def essence (self : ContentType) : Str :=
  self.type ++ '/' :: self.subtype

def render (self : ContentType) : Str :=
  self.essence ++ self.trail ++ self.params.flatMap fun param ↦ ';' :: param.render

/-- Types and subtypes are compared without regard to case. -/
def isOf (type subtype : Str) (self : ContentType) : Bool :=
  Text.eqIgnoreAsciiCase self.type type && Text.eqIgnoreAsciiCase self.subtype subtype

/-- The value of the first parameter of a name. -/
def param (name : Str) (self : ContentType) : Option Str :=
  (self.params.find? (·.isNamed name)).map (·.value.text)

end ContentType

example :
    ContentType.render
      { type := "text".toList
        subtype := "plain".toList
        params := [{ name := "x".toList, value := .quote "\";".toList }] } =
      "text/plain; x=\"\\\";\"".toList := by
  decide

/-! ### Characters -/

variable {c : Char}

theorem isWhitespace_of_isBlank (h : isBlank c) : Text.isWhitespace c := by
  rw [isBlank, Bool.or_eq_true, decide_eq_true_eq, decide_eq_true_eq] at h
  rcases h with rfl | rfl
  · decide
  · decide

theorem ne_of_isBlank (h : isBlank c) : c ≠ ';' ∧ c ≠ '=' := by
  constructor
  · rintro rfl
    exact absurd h (by decide)
  · rintro rfl
    exact absurd h (by decide)

theorem isWhitespace_of_mem_token {s : Str} (h : s.all isTokenChar) (hc : c ∈ s) :
    Text.isWhitespace c = false :=
  Text.isWhitespace_of_isAsciiGraphic (Bool.and_eq_true_iff.1 (List.all_eq_true.1 h c hc)).1

/-- The separators are not in a token. -/
theorem not_mem_of_token {s : Str} {d : Char} (h : s.all isTokenChar)
    (hd : isTokenChar d = false) : d ∉ s := by
  intro hmem
  rw [List.all_eq_true.1 h d hmem] at hd
  cases hd

/-! ### Values -/

namespace Value

theorem text_eq_nil_iff (self : Value) : self.text = [] ↔ self.raw = [] := by
  cases self with
  | token s h => exact Iff.rfl
  | quoted body =>
    show body.map QuotedChar.char = [] ↔ body.flatMap QuotedChar.render = []
    cases body with
    | nil => exact Iff.rfl
    | cons first body =>
      cases first with
      | plain d _ => exact iff_of_false (List.cons_ne_nil _ _) (List.cons_ne_nil _ _)
      | pair d => exact iff_of_false (List.cons_ne_nil _ _) (List.cons_ne_nil _ _)

/-- A character of a value other than the backslash is one that is meant. -/
theorem mem_text {self : Value} (h : c ∈ self.raw) (hc : c ≠ '\\') : c ∈ self.text := by
  cases self with
  | token s _ => exact h
  | quoted body =>
    obtain ⟨q, hq, hmem⟩ := List.mem_flatMap.1 h
    refine List.mem_map.2 ⟨q, hq, ?_⟩
    cases q with
    | plain d _ => exact (List.mem_singleton.1 hmem).symm
    | pair d => exact (List.mem_singleton.1 (List.mem_of_ne_of_mem hc hmem)).symm

theorem length_text_le (body : List QuotedChar) :
    (body.map QuotedChar.char).length ≤ (body.flatMap QuotedChar.render).length := by
  induction body with
  | nil => exact Nat.le_refl _
  | cons first body ih =>
    rw [List.map_cons, List.flatMap_cons, List.length_cons, List.length_append, Nat.add_comm]
    refine Nat.add_le_add ?_ ih
    cases first with
    | plain d _ => exact Nat.le_refl _
    | pair d => exact Nat.le_succ _

/-- A value is written as it is meant exactly if there is no backslash. -/
theorem raw_eq_text_iff (self : Value) : self.raw = self.text ↔ '\\' ∉ self.raw := by
  cases self with
  | token s h => exact iff_of_true rfl (not_mem_of_token h (by decide))
  | quoted body =>
    show body.flatMap QuotedChar.render = body.map QuotedChar.char ↔
      '\\' ∉ body.flatMap QuotedChar.render
    induction body with
    | nil => exact iff_of_true rfl List.not_mem_nil
    | cons first body ih =>
      rw [List.flatMap_cons, List.map_cons]
      cases first with
      | plain d h =>
        show d :: body.flatMap QuotedChar.render = d :: body.map QuotedChar.char ↔
          '\\' ∉ d :: body.flatMap QuotedChar.render
        rw [List.cons_inj_right, ih, List.mem_cons, not_or]
        exact (and_iff_right h.2.symm).symm
      | pair d =>
        -- The backslash makes what is written longer than what is meant.
        refine iff_of_false (fun heq ↦ ?_) fun hmem ↦ hmem List.mem_cons_self
        have hlength := congrArg List.length heq
        have hle := length_text_le body
        rw [List.length_append, List.length_cons] at hlength
        have hpair : (QuotedChar.pair d).render.length = 2 := rfl
        omega

/-- Behind the opening quote there is no second quote, unless the string is empty. -/
theorem head?_raw_ne (body : List QuotedChar) : (quoted body).raw.head? ≠ some '"' := by
  intro hhead
  cases body with
  | nil => cases hhead
  | cons first body =>
    cases first with
    | plain d h => exact h.1 (Option.some.inj hhead)
    | pair d => exact absurd (Option.some.inj hhead) (by decide)

theorem mem_render_iff {self : Value} (hc : c ≠ '"') : c ∈ self.render ↔ c ∈ self.raw := by
  cases self with
  | token s _ => exact Iff.rfl
  | quoted body =>
    show c ∈ '"' :: (body.flatMap QuotedChar.render ++ ['"']) ↔ c ∈ body.flatMap QuotedChar.render
    rw [List.mem_cons, or_iff_right hc, List.mem_append, List.mem_singleton, or_iff_left hc]

/-- A value without a `;` stays in one piece. -/
theorem strays_eq_nil {self : Value} (h : ';' ∉ self.raw) : self.strays = [] := by
  rw [strays, List.splitOn_eq_singleton ((mem_render_iff (by decide)).not.2 h), List.tail_cons]

end Value

/-! ### Cutting at each semicolon -/

theorem splitOn_flatMap {α : Type*} (sep : Char) (f : α → Str) (s : Str) (xs : List α) :
    (s ++ xs.flatMap fun x ↦ sep :: f x).splitOn sep =
      s.splitOn sep ++ xs.flatMap fun x ↦ (f x).splitOn sep := by
  induction xs generalizing s with
  | nil => rw [List.flatMap_nil, List.flatMap_nil, List.append_nil, List.append_nil]
  | cons x xs ih =>
    rw [List.flatMap_cons, List.flatMap_cons, List.cons_append, List.splitOn_append_cons_self, ih]

namespace ContentType

variable (self : ContentType)

theorem isWhitespace_of_mem_essence (hc : c ∈ self.essence) : Text.isWhitespace c = false := by
  rcases List.mem_append.1 hc with htype | hsubtype
  · exact isWhitespace_of_mem_token self.type_token htype
  · rcases List.mem_cons.1 hsubtype with rfl | hsubtype
    · decide
    · exact isWhitespace_of_mem_token self.subtype_token hsubtype

theorem semicolon_not_mem_essence : ';' ∉ self.essence := by
  intro hmem
  rcases List.mem_append.1 hmem with htype | hsubtype
  · exact not_mem_of_token self.type_token (by decide) htype
  · rcases List.mem_cons.1 hsubtype with heq | hsubtype
    · exact absurd heq (by decide)
    · exact not_mem_of_token self.subtype_token (by decide) hsubtype

/-- The text of a content type, cut at each `;`. -/
theorem splitOn_render :
    self.render.splitOn ';' =
      (self.essence ++ self.trail) :: self.params.flatMap fun param ↦ param.render.splitOn ';' := by
  have hfirst : ';' ∉ self.essence ++ self.trail := by
    intro hmem
    rcases List.mem_append.1 hmem with hessence | htrail
    · exact self.semicolon_not_mem_essence hessence
    · exact (ne_of_isBlank (List.all_eq_true.1 self.trail_blank _ htrail)).1 rfl
  rw [render, splitOn_flatMap, List.splitOn_eq_singleton hfirst, List.singleton_append]

theorem trim_essence_append_trail : Text.trim (self.essence ++ self.trail) = self.essence := by
  have htrim : ∀ s trail : Str, (∀ c ∈ trail, isBlank c) →
      Text.trim (s ++ trail) = Text.trim s := by
    intro s trail htrail
    induction trail using List.reverseRecOn with
    | nil => rw [List.append_nil]
    | append_singleton trail c ih =>
      have hc : isBlank c := htrail c (List.mem_append_right _ (List.mem_singleton_self c))
      rw [← List.append_assoc, Text.trim_concat_of_isWhitespace _ (isWhitespace_of_isBlank hc)]
      exact ih fun d hd ↦ htrail d (List.mem_append_left _ hd)
  rw [htrim _ _ (List.all_eq_true.1 self.trail_blank)]
  exact Text.trim_eq_self_of_forall fun c hc ↦ self.isWhitespace_of_mem_essence hc

/-- The type and the subtype may be compared in one. -/
theorem eqIgnoreAsciiCase_essence {type : Str} (htype : '/' ∉ type) (subtype : Str) :
    Text.eqIgnoreAsciiCase self.essence (type ++ '/' :: subtype) = self.isOf type subtype := by
  have hslash : ∀ s : Str, '/' ∉ s → '/' ∉ s.map Text.toAsciiLowercase := by
    intro s hs hmem
    obtain ⟨c, hc, hlower⟩ := List.mem_map.1 hmem
    rw [(Text.toAsciiLowercase_eq_iff (Or.inl (by decide))).1 hlower] at hc
    exact hs hc
  rw [Bool.eq_iff_iff, isOf, Bool.and_eq_true, Text.eqIgnoreAsciiCase_iff,
    Text.eqIgnoreAsciiCase_iff, Text.eqIgnoreAsciiCase_iff, essence, List.map_append,
    List.map_append, List.map_cons, List.map_cons]
  refine ⟨fun h ↦ ?_, fun ⟨htypes, hsubtypes⟩ ↦ by rw [htypes, hsubtypes]⟩
  have hsplit := congrArg (Text.splitOnce '/') h
  have hlower : Text.toAsciiLowercase '/' = '/' := by decide
  rw [hlower, Text.splitOnce_append _ (hslash _ (not_mem_of_token self.type_token (by decide))),
    Text.splitOnce_append _ (hslash _ htype)] at hsplit
  exact Prod.mk.inj (Option.some.inj hsplit)

end ContentType

end MediaType
