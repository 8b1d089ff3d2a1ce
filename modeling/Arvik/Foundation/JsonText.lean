import Arvik.Foundation.Text

/-!
# JSON texts

The grammar of JSON as predicates on texts. It is stated forwards: a value is put together from
values, there is no reader. What is needed to take a text apart again is that a value tells by its
first and last characters what it is (`IsValue.isString_of_head`, `IsValue.isString_of_last`,
`IsValue.isObject_of_head`), and that the characters of a string end at the first quote that is not
escaped (`IsChars.append_quote_inj`).

The predicates for objects and arrays take the predicate for their values as an argument, and
`IsValue` ties the knot. So a fact about members or elements is proved for any predicate on the
values, by an induction on the separated list only, and the nested induction is left to the few
lemmas that are about values all the way down.
-/

namespace JsonText

/-! ### The grammar -/

/-- The characters between the tokens. -/
def isWs (c : Char) : Bool :=
  c = ' ' || c = '\t' || c = '\n' || c = '\r'

/-- Characters between tokens only. -/
def IsBlank (s : Str) : Prop :=
  ∀ c ∈ s, isWs c

/-- The characters of a string that stand for themselves. -/
def isPlain (c : Char) : Bool :=
  32 ≤ c.toNat && c ≠ '"' && c ≠ '\\'

/-- The characters that may follow a backslash. -/
def isEscaped (c : Char) : Bool :=
  c ∈ ['"', '\\', '/', 'b', 'f', 'n', 'r', 't']

/-- A hexadecimal digit. -/
def isHexDigit (c : Char) : Bool :=
  c.isDigit || ('a' ≤ c && c ≤ 'f') || ('A' ≤ c && c ≤ 'F')

/-- What may stand between the quotes of a string. -/
inductive IsChars : Str → Prop
  | nil : IsChars []
  | plain {c : Char} {s : Str} (hc : isPlain c) (hs : IsChars s) : IsChars (c :: s)
  | escape {c : Char} {s : Str} (hc : isEscaped c) (hs : IsChars s) : IsChars ('\\' :: c :: s)
  | unicode {c₁ c₂ c₃ c₄ : Char} {s : Str} (h₁ : isHexDigit c₁) (h₂ : isHexDigit c₂)
      (h₃ : isHexDigit c₃) (h₄ : isHexDigit c₄) (hs : IsChars s) :
      IsChars ('\\' :: 'u' :: c₁ :: c₂ :: c₃ :: c₄ :: s)

/-- A string. -/
inductive IsString : Str → Prop
  | quoted {s : Str} (hs : IsChars s) : IsString ('"' :: s ++ ['"'])

/-- A non-empty sequence of digits. -/
def IsDigits (s : Str) : Prop :=
  s ≠ [] ∧ ∀ c ∈ s, c.isDigit

/-- The fraction of a number, if it has one. -/
def IsFraction (s : Str) : Prop :=
  s = [] ∨ ∃ digits, IsDigits digits ∧ s = '.' :: digits

/-- The exponent of a number, if it has one. -/
def IsExponent (s : Str) : Prop :=
  s = [] ∨ ∃ e sign digits, (e = 'e' ∨ e = 'E') ∧ (sign = [] ∨ sign = ['+'] ∨ sign = ['-']) ∧
    IsDigits digits ∧ s = e :: (sign ++ digits)

/-- A number. -/
inductive IsNumber : Str → Prop
  | mk {sign whole fraction exponent : Str} (hsign : sign = [] ∨ sign = ['-'])
      (hwhole : IsDigits whole) (hzero : whole.head? = some '0' → whole = ['0'])
      (hfraction : IsFraction fraction) (hexponent : IsExponent exponent) :
      IsNumber (sign ++ whole ++ fraction ++ exponent)

/-- One or more texts, separated by commas. -/
inductive SepBy (P : Str → Prop) : Str → Prop
  | one {s : Str} (hs : P s) : SepBy P s
  | cons {s t : Str} (hs : P s) (ht : SepBy P t) : SepBy P (s ++ ',' :: t)

/-- A value, with blanks around it. -/
inductive Element (V : Str → Prop) : Str → Prop
  | mk {w₁ v w₂ : Str} (hw₁ : IsBlank w₁) (hv : V v) (hw₂ : IsBlank w₂) : Element V (w₁ ++ v ++ w₂)

/-- A name and a value, with blanks around them. -/
inductive Member (V : Str → Prop) : Str → Prop
  | mk {w₁ name w₂ value : Str} (hw₁ : IsBlank w₁) (hname : IsString name) (hw₂ : IsBlank w₂)
      (hvalue : Element V value) : Member V (w₁ ++ name ++ w₂ ++ ':' :: value)

/-- An object. -/
inductive IsObject (V : Str → Prop) : Str → Prop
  | empty {w : Str} (hw : IsBlank w) : IsObject V ('{' :: w ++ ['}'])
  | members {s : Str} (hs : SepBy (Member V) s) : IsObject V ('{' :: s ++ ['}'])

/-- An array. -/
inductive IsArray (V : Str → Prop) : Str → Prop
  | empty {w : Str} (hw : IsBlank w) : IsArray V ('[' :: w ++ [']'])
  | elements {s : Str} (hs : SepBy (Element V) s) : IsArray V ('[' :: s ++ [']'])

/-- A value. -/
inductive IsValue : Str → Prop
  | null : IsValue ['n', 'u', 'l', 'l']
  | true : IsValue ['t', 'r', 'u', 'e']
  | false : IsValue ['f', 'a', 'l', 's', 'e']
  | number {s : Str} (hs : IsNumber s) : IsValue s
  | string {s : Str} (hs : IsString s) : IsValue s
  | array {s : Str} (hs : IsArray IsValue s) : IsValue s
  | object {s : Str} (hs : IsObject IsValue s) : IsValue s

/-- A text that is JSON: one value, blanks around it. -/
def IsText (s : Str) : Prop :=
  Element IsValue s

/-- A text that is one JSON object, blanks around it. -/
def IsObjectText (s : Str) : Prop :=
  Element (IsObject IsValue) s

theorem IsObjectText.isText {s : Str} (h : IsObjectText s) : IsText s := by
  obtain ⟨hw₁, hv, hw₂⟩ := h
  exact .mk hw₁ (.object hv) hw₂

/-- Bytes that are JSON in UTF-8. -/
def IsJson (bytes : Bytes) : Prop :=
  ∃ s, Text.utf8 s = bytes ∧ IsText s

/-- Bytes that are one JSON object in UTF-8. -/
def IsJsonObject (bytes : Bytes) : Prop :=
  ∃ s, Text.utf8 s = bytes ∧ IsObjectText s

theorem isJson_utf8_iff {s : Str} : IsJson (Text.utf8 s) ↔ IsText s := by
  refine ⟨?_, fun h ↦ ⟨s, rfl, h⟩⟩
  rintro ⟨t, ht, htext⟩
  rwa [← Text.utf8_injective ht]

theorem isJsonObject_utf8_iff {s : Str} : IsJsonObject (Text.utf8 s) ↔ IsObjectText s := by
  refine ⟨?_, fun h ↦ ⟨s, rfl, h⟩⟩
  rintro ⟨t, ht, htext⟩
  rwa [← Text.utf8_injective ht]

theorem isBlank_nil : IsBlank [] :=
  fun _ h ↦ absurd h List.not_mem_nil

/-- A value without blanks. -/
theorem Element.of_value {V : Str → Prop} {v : Str} (h : V v) : Element V v := by
  have hvalue := Element.mk isBlank_nil h isBlank_nil
  rwa [List.nil_append, List.append_nil] at hvalue

/-! ### Taking texts apart -/

theorem IsBlank.eq_nil_of_head {w s t : Str} {c : Char} (hw : IsBlank w) (hc : isWs c = false)
    (h : w ++ s = c :: t) : w = [] := by
  rcases w with - | ⟨d, w⟩
  · rfl
  · obtain rfl : d = c := (List.cons.inj h).1
    exact absurd (hw d List.mem_cons_self) (by rw [hc]; exact Bool.false_ne_true)

theorem IsBlank.eq_nil_of_last {w s t : Str} {c : Char} (hw : IsBlank w) (hc : isWs c = false)
    (h : s ++ w = t ++ [c]) : w = [] := by
  rcases List.eq_nil_or_concat' w with rfl | ⟨w, d, rfl⟩
  · rfl
  · rw [← List.append_assoc] at h
    obtain rfl : d = c := (List.append_singleton_inj.1 h).2
    exact absurd (hw d (List.mem_append_right _ List.mem_cons_self)) (by
      rw [hc]
      exact Bool.false_ne_true)

/-- The characters of a string end at the first quote that is not escaped. -/
theorem IsChars.append_quote_inj {a b s t : Str} (ha : IsChars a) (hb : IsChars b)
    (h : a ++ '"' :: s = b ++ '"' :: t) : a = b ∧ s = t := by
  -- the kinds of characters are told apart by how they begin, so both texts begin alike
  have hplain : ¬ isPlain '"' := by decide
  have hplain' : ¬ isPlain '\\' := by decide
  have hescaped : ¬ isEscaped 'u' := by decide
  induction ha generalizing b with
  | nil =>
    rcases hb with - | ⟨hc, -⟩ | - | -
    · exact ⟨rfl, (List.cons.inj h).2⟩
    · rw [← (List.cons.inj h).1] at hc
      exact absurd hc hplain
    · cases (List.cons.inj h).1
    · cases (List.cons.inj h).1
  | plain hc hs ih =>
    rcases hb with - | ⟨-, hb⟩ | - | -
    · rw [(List.cons.inj h).1] at hc
      exact absurd hc hplain
    · simp only [List.cons_append, List.cons.injEq] at h
      obtain ⟨rfl, hrest⟩ := h
      obtain ⟨rfl, rfl⟩ := ih hb hrest
      exact ⟨rfl, rfl⟩
    · rw [(List.cons.inj h).1] at hc
      exact absurd hc hplain'
    · rw [(List.cons.inj h).1] at hc
      exact absurd hc hplain'
  | escape hc hs ih =>
    rcases hb with - | ⟨hc', -⟩ | ⟨-, hb⟩ | -
    · cases (List.cons.inj h).1
    · rw [← (List.cons.inj h).1] at hc'
      exact absurd hc' hplain'
    · simp only [List.cons_append, List.cons.injEq, true_and] at h
      obtain ⟨rfl, hrest⟩ := h
      obtain ⟨rfl, rfl⟩ := ih hb hrest
      exact ⟨rfl, rfl⟩
    · obtain ⟨-, hrest⟩ := List.cons.inj h
      rw [(List.cons.inj hrest).1] at hc
      exact absurd hc hescaped
  | unicode h₁ h₂ h₃ h₄ hs ih =>
    rcases hb with - | ⟨hc', -⟩ | ⟨hc', -⟩ | ⟨-, -, -, -, hb⟩
    · cases (List.cons.inj h).1
    · rw [← (List.cons.inj h).1] at hc'
      exact absurd hc' hplain'
    · obtain ⟨-, hrest⟩ := List.cons.inj h
      rw [← (List.cons.inj hrest).1] at hc'
      exact absurd hc' hescaped
    · simp only [List.cons_append, List.cons.injEq, true_and] at h
      obtain ⟨rfl, rfl, rfl, rfl, hrest⟩ := h
      obtain ⟨rfl, rfl⟩ := ih hb hrest
      exact ⟨rfl, rfl⟩

/-- Characters that stand for themselves may be put before the characters of a string. -/
theorem isChars_append_iff {p s : Str} (hp : ∀ c ∈ p, isPlain c) :
    IsChars (p ++ s) ↔ IsChars s := by
  induction p with
  | nil => exact Iff.rfl
  | cons c p ih =>
    have hc := hp c List.mem_cons_self
    rw [← ih fun d hd ↦ hp d (List.mem_cons_of_mem c hd), List.cons_append]
    generalize p ++ s = t
    refine ⟨fun h ↦ ?_, .plain hc⟩
    rcases h with - | ⟨-, hs⟩ | - | -
    · exact hs
    · exact absurd hc (by decide)
    · exact absurd hc (by decide)

/-- A number starts with a digit or a sign. -/
theorem IsNumber.head {s : Str} (h : IsNumber s) : ∃ c t, s = c :: t ∧ (c = '-' ∨ c.isDigit) := by
  obtain ⟨hsign, ⟨hne, hdigits⟩, -, -, -⟩ := h
  rcases hsign with rfl | rfl
  · obtain ⟨c, t, rfl⟩ := List.exists_cons_of_ne_nil hne
    exact ⟨c, _, rfl, .inr (hdigits c List.mem_cons_self)⟩
  · exact ⟨'-', _, rfl, .inl rfl⟩

theorem IsDigits.last {s : Str} (h : IsDigits s) : ∃ t c, s = t ++ [c] ∧ c.isDigit := by
  obtain ⟨t, c, rfl⟩ := (List.eq_nil_or_concat' s).resolve_left h.1
  exact ⟨t, c, rfl, h.2 c (List.mem_append_right _ List.mem_cons_self)⟩

/-- A number ends with a digit. -/
theorem IsNumber.last {s : Str} (h : IsNumber s) : ∃ t c, s = t ++ [c] ∧ c.isDigit := by
  obtain ⟨-, hwhole, -, hfraction, hexponent⟩ := h
  rcases hexponent with rfl | ⟨e, sign, digits, -, -, hdigits, rfl⟩
  · rcases hfraction with rfl | ⟨digits, hdigits, rfl⟩
    · obtain ⟨t, c, rfl, hc⟩ := hwhole.last
      exact ⟨_, c, by rw [List.append_nil, List.append_nil, List.append_assoc], hc⟩
    · obtain ⟨t, c, rfl, hc⟩ := hdigits.last
      exact ⟨_, c, by rw [List.append_nil, ← List.cons_append, ← List.append_assoc], hc⟩
  · obtain ⟨t, c, rfl, hc⟩ := hdigits.last
    exact ⟨_, c, by rw [← List.append_assoc, ← List.cons_append, ← List.append_assoc], hc⟩

/-- A value that starts with a quote is a string. -/
theorem IsValue.isString_of_head {s : Str} (h : IsValue ('"' :: s)) : IsString ('"' :: s) := by
  generalize hv : '"' :: s = v at h
  rcases h with - | - | - | h | h | h | h
  · cases hv
  · cases hv
  · cases hv
  · obtain ⟨c, t, rfl, hc⟩ := h.head
    rw [← (List.cons.inj hv).1] at hc
    exact absurd hc (by decide)
  · exact h
  · rcases h with - | -
    · cases (List.cons.inj hv).1
    · cases (List.cons.inj hv).1
  · rcases h with - | -
    · cases (List.cons.inj hv).1
    · cases (List.cons.inj hv).1

/-- A value that ends with a quote is a string. -/
theorem IsValue.isString_of_last {s : Str} (h : IsValue (s ++ ['"'])) : IsString (s ++ ['"']) := by
  have hne : ∀ {t : Str} {c : Char}, s ++ ['"'] = t ++ [c] → '"' = c := fun hst ↦
    (List.append_singleton_inj.1 hst).2
  generalize hv : s ++ ['"'] = v at h hne
  rcases h with - | - | - | h | h | h | h
  · cases hne (t := ['n', 'u', 'l']) rfl
  · cases hne (t := ['t', 'r', 'u']) rfl
  · cases hne (t := ['f', 'a', 'l', 's']) rfl
  · obtain ⟨t, c, rfl, hc⟩ := h.last
    rw [← hne rfl] at hc
    exact absurd hc (by decide)
  · exact h
  · rcases h with - | -
    · cases hne rfl
    · cases hne rfl
  · rcases h with - | -
    · cases hne rfl
    · cases hne rfl

/-- A value that starts with a brace is an object. -/
theorem IsValue.isObject_of_head {s : Str} (h : IsValue ('{' :: s)) :
    IsObject IsValue ('{' :: s) := by
  generalize hv : '{' :: s = v at h
  rcases h with - | - | - | h | h | h | h
  · cases hv
  · cases hv
  · cases hv
  · obtain ⟨c, t, rfl, hc⟩ := h.head
    rw [← (List.cons.inj hv).1] at hc
    exact absurd hc (by decide)
  · obtain ⟨-⟩ := h
    cases (List.cons.inj hv).1
  · rcases h with - | -
    · cases (List.cons.inj hv).1
    · cases (List.cons.inj hv).1
  · exact h

/-- The members of an object that starts with a quote are not missing. -/
theorem IsObject.members_of_head {V : Str → Prop} {s : Str}
    (h : IsObject V ('{' :: '"' :: s ++ ['}'])) : SepBy (Member V) ('"' :: s) := by
  generalize hv : '{' :: '"' :: s ++ ['}'] = v at h
  rcases h with ⟨hw⟩ | hs
  · obtain rfl := List.append_cancel_right (List.cons.inj hv).2
    exact absurd (hw '"' List.mem_cons_self) (by decide)
  · obtain rfl := List.append_cancel_right (List.cons.inj hv).2
    exact hs

end JsonText
