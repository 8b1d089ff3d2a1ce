import Arvik.Foundation.JsonText

/-!
# Text spliced into JSON

What becomes of an object with one member, `{"name":"start…"}`, when a text is put in front of the
closing quote as it is, without escaping. The result is JSON exactly if the text is an `OpenString`
(`isText_spliced_iff`): characters of a string, or characters of a string that is closed and
followed by further members of the object, the last of which is a string that is left open again.

So a spliced text is dangerous in two ways, and the two are told apart: one breaks the object, and
the other adds members to it. Both directions are proved from the grammar. For what is accepted, a
derivation of the object is taken apart from its front, where the name and the start are known, and
at its end, where the last character is a quote; nothing is assumed about the middle.

The conditions are inductive predicates that build a text from left to right, so a text can be shown
to satisfy or to break them without a parser.
-/

namespace JsonText

/-- Members of an object the last of which is a string without its closing quote. -/
inductive OpenMembers : Str → Prop
  | last {w₁ name w₂ w₃ s : Str} (hw₁ : IsBlank w₁) (hname : IsString name) (hw₂ : IsBlank w₂)
      (hw₃ : IsBlank w₃) (hs : IsChars s) :
      OpenMembers (w₁ ++ name ++ w₂ ++ ':' :: (w₃ ++ '"' :: s))
  | cons {s t : Str} (hs : Member IsValue s) (ht : OpenMembers t) : OpenMembers (s ++ ',' :: t)

/-- What may stand before the closing quote of a string that is the last value of an object. -/
inductive OpenString : Str → Prop
  | chars {s : Str} (hs : IsChars s) : OpenString s
  | members {s w t : Str} (hs : IsChars s) (hw : IsBlank w) (ht : OpenMembers t) :
      OpenString (s ++ '"' :: (w ++ ',' :: t))

/-- An object with one member, a text spliced into its value. -/
def spliced (name start text : Str) : Str :=
  '{' :: '"' :: (name ++ '"' :: ':' :: '"' :: (start ++ text ++ ['"'])) ++ ['}']

theorem spliced_eq (name start text : Str) :
    spliced name start text =
      '{' :: '"' :: (name ++ '"' :: ':' :: '"' :: start) ++ text ++ ['"', '}'] := by
  simp only [spliced, List.append_assoc, List.cons_append, List.nil_append]

/-! ### Elements and members at a quote -/

theorem IsValue.ne_nil {s : Str} (h : IsValue s) : s ≠ [] := by
  rcases h with - | - | - | h | h | h | h
  · exact List.cons_ne_nil _ _
  · exact List.cons_ne_nil _ _
  · exact List.cons_ne_nil _ _
  · obtain ⟨c, t, rfl, -⟩ := h.head
    exact List.cons_ne_nil _ _
  · obtain ⟨-⟩ := h
    exact List.cons_ne_nil _ _
  · rcases h with - | -
    · exact List.cons_ne_nil _ _
    · exact List.cons_ne_nil _ _
  · rcases h with - | -
    · exact List.cons_ne_nil _ _
    · exact List.cons_ne_nil _ _

/-- A text that ends with a character ends with it behind any prefix that is not the whole text. -/
theorem concat_eq_append_cons {s x t : Str} {c d : Char} (hne : c ≠ d)
    (h : s ++ [c] = x ++ d :: t) : ∃ t', t = t' ++ [c] ∧ s = x ++ d :: t' := by
  rcases List.eq_nil_or_concat' t with rfl | ⟨t', c', rfl⟩
  · exact absurd (List.append_singleton_inj.1 h).2 hne
  · rw [← List.cons_append, ← List.append_assoc] at h
    obtain ⟨hs, rfl⟩ := List.append_singleton_inj.1 h
    exact ⟨t', rfl, hs⟩

/-- An element that ends with a quote is a string. -/
theorem Element.isChars_of_last {t : Str} (h : Element IsValue (t ++ ['"'])) :
    ∃ w s, t = w ++ '"' :: s ∧ IsBlank w ∧ IsChars s := by
  generalize hv : t ++ ['"'] = v at h
  obtain ⟨hw₁, hvalue, hw₂⟩ := h
  obtain rfl := hw₂.eq_nil_of_last (by decide) hv.symm
  rw [List.append_nil] at hv
  obtain ⟨v, c, rfl⟩ := (List.eq_nil_or_concat' _).resolve_left hvalue.ne_nil
  rw [← List.append_assoc] at hv
  obtain ⟨rfl, rfl⟩ := List.append_singleton_inj.1 hv
  have hstring := hvalue.isString_of_last
  generalize hx : v ++ ['"'] = x at hstring
  obtain ⟨hs⟩ := hstring
  rw [List.append_cancel_right hx]
  exact ⟨_, _, rfl, hw₁, hs⟩

/-- An element that starts with a quote is a string. -/
theorem Element.isChars_of_head {v rest t : Str} (h : Element IsValue v)
    (hv : v ++ rest = '"' :: t) :
    ∃ s w, IsChars s ∧ IsBlank w ∧ t = s ++ '"' :: (w ++ rest) := by
  obtain ⟨hw₁, hvalue, hw₂⟩ := h
  rw [List.append_assoc, List.append_assoc] at hv
  obtain rfl := hw₁.eq_nil_of_head (by decide) hv
  obtain ⟨c, v, rfl⟩ := List.exists_cons_of_ne_nil hvalue.ne_nil
  obtain ⟨rfl, rfl⟩ := List.cons.inj hv
  have hstring := hvalue.isString_of_head
  generalize hx : '"' :: v = x at hstring
  obtain ⟨hs⟩ := hstring
  obtain rfl := (List.cons.inj hx).2
  exact ⟨_, _, hs, hw₂, List.append_assoc _ _ _⟩

/-- A member with a known name whose value starts with a quote. -/
theorem Member.isChars_of_head {m rest name t : Str} (h : Member IsValue m) (hname : IsChars name)
    (hm : m ++ rest = '"' :: (name ++ '"' :: ':' :: '"' :: t)) :
    ∃ s w, IsChars s ∧ IsBlank w ∧ t = s ++ '"' :: (w ++ rest) := by
  obtain ⟨hw₁, hstring, hw₂, hvalue⟩ := h
  simp only [List.append_assoc] at hm
  obtain rfl := hw₁.eq_nil_of_head (by decide) hm
  obtain ⟨hs⟩ := hstring
  simp only [List.nil_append, List.cons_append, List.append_assoc, List.cons.injEq,
    true_and] at hm
  obtain ⟨-, hcolon⟩ := hs.append_quote_inj hname hm
  obtain rfl := hw₂.eq_nil_of_head (by decide) hcolon
  exact hvalue.isChars_of_head (List.cons.inj hcolon).2

/-! ### When the result is JSON -/

/-- The quote that open members lack makes them members. -/
theorem sepBy_concat_iff {s : Str} :
    SepBy (Member IsValue) (s ++ ['"']) ↔ OpenMembers s := by
  constructor
  · intro h
    generalize hv : s ++ ['"'] = v at h
    induction h generalizing s with
    | one hs =>
      obtain ⟨hw₁, hname, hw₂, hvalue⟩ := hs
      obtain ⟨t, rfl, rfl⟩ := concat_eq_append_cons (by decide) hv
      obtain ⟨w, s, rfl, hw, hs⟩ := hvalue.isChars_of_last
      exact .last hw₁ hname hw₂ hw hs
    | cons hs _ ih =>
      obtain ⟨t, rfl, rfl⟩ := concat_eq_append_cons (by decide) hv
      exact .cons hs (ih rfl)
  · intro h
    induction h with
    | @last w₁ name w₂ w₃ s hw₁ hname hw₂ hw₃ hs =>
      have hvalue : Element IsValue (w₃ ++ ('"' :: s ++ ['"']) ++ []) :=
        .mk hw₃ (.string (.quoted hs)) isBlank_nil
      have hmember := SepBy.one (Member.mk hw₁ hname hw₂ hvalue)
      simp only [List.append_assoc, List.cons_append, List.append_nil] at hmember ⊢
      exact hmember
    | cons hs _ ih =>
      rw [List.append_assoc, List.cons_append]
      exact .cons hs ih

/-- A start of plain characters belongs to the string that is closed by the first quote. -/
theorem append_quote_eq_append {s t start text : Str} (hstart : ∀ c ∈ start, isPlain c)
    (h : s ++ '"' :: t = start ++ text) : ∃ a, s = start ++ a ∧ text = a ++ '"' :: t := by
  rcases List.append_eq_append_iff.1 h with ⟨a, rfl, hrest⟩ | ⟨a, rfl, hrest⟩
  · rcases a with - | ⟨c, a⟩
    · exact ⟨[], by rw [List.append_nil, List.append_nil], hrest.symm⟩
    · obtain rfl := (List.cons.inj hrest).1
      exact absurd (hstart '"' (List.mem_append_right _ List.mem_cons_self)) (by decide)
  · exact ⟨a, rfl, hrest⟩

variable {name start text : Str}

/-- The member that has the text for the end of its value, with blanks behind it. -/
theorem member_spliced {s w : Str} (hname : IsChars name) (hstart : ∀ c ∈ start, isPlain c)
    (hs : IsChars s) (hw : IsBlank w) :
    Member IsValue ('"' :: (name ++ '"' :: ':' :: '"' :: (start ++ s ++ '"' :: w))) := by
  have hvalue : Element IsValue ([] ++ ('"' :: (start ++ s) ++ ['"']) ++ w) :=
    .mk isBlank_nil (.string (.quoted ((isChars_append_iff hstart).2 hs))) hw
  have hmember := Member.mk isBlank_nil (.quoted hname) isBlank_nil hvalue
  simpa only [List.append_assoc, List.cons_append, List.nil_append, List.append_nil]
    using hmember

/-- What is spliced in ends a string, or ends one and goes on with members. -/
theorem openString_of_sepBy (hname : IsChars name) (hstart : ∀ c ∈ start, isPlain c)
    (h : SepBy (Member IsValue)
      ('"' :: (name ++ '"' :: ':' :: '"' :: (start ++ text ++ ['"'])))) : OpenString text := by
  generalize hv : '"' :: (name ++ '"' :: ':' :: '"' :: (start ++ text ++ ['"'])) = v at h
  rcases h with ⟨hs⟩ | @⟨m, t, hs, ht⟩
  · -- one member: its value is the string that the quote behind the text closes
    rw [← List.append_nil v] at hv
    obtain ⟨s, w, hs, hw, heq⟩ := hs.isChars_of_head hname hv.symm
    have hlast : s ++ ['"'] ++ w = start ++ text ++ ['"'] := by
      rw [heq, List.append_nil, List.append_assoc]
      rfl
    obtain rfl := hw.eq_nil_of_last (by decide) hlast
    rw [List.append_nil] at hlast
    rw [List.append_cancel_right hlast, isChars_append_iff hstart] at hs
    exact .chars hs
  · -- several: the value of the first one is closed within the text
    obtain ⟨s, w, hs, hw, heq⟩ := hs.isChars_of_head hname hv.symm
    rw [← List.cons_append, ← List.append_assoc] at heq
    obtain ⟨t, rfl, htext⟩ := concat_eq_append_cons (by decide) heq
    have hsplit : s ++ '"' :: (w ++ ',' :: t) = start ++ text := by
      rw [htext, List.append_assoc]
      rfl
    obtain ⟨a, rfl, rfl⟩ := append_quote_eq_append hstart hsplit
    exact .members ((isChars_append_iff hstart).1 hs) hw (sepBy_concat_iff.1 ht)

/-- The members of an object with a text spliced in. -/
theorem sepBy_spliced_iff (hname : IsChars name) (hstart : ∀ c ∈ start, isPlain c) :
    SepBy (Member IsValue)
      ('"' :: (name ++ '"' :: ':' :: '"' :: (start ++ text ++ ['"']))) ↔ OpenString text := by
  refine ⟨openString_of_sepBy hname hstart, fun h ↦ ?_⟩
  rcases h with ⟨hs⟩ | ⟨hs, hw, ht⟩
  · exact .one (member_spliced hname hstart hs isBlank_nil)
  · have hmembers := SepBy.cons (member_spliced hname hstart hs hw) (sepBy_concat_iff.2 ht)
    simpa only [List.append_assoc, List.cons_append] using hmembers

/-- **A text spliced into the value of an object** makes JSON exactly if it is an open string. -/
theorem isText_spliced_iff (hname : IsChars name) (hstart : ∀ c ∈ start, isPlain c) :
    IsText (spliced name start text) ↔ OpenString text := by
  rw [← sepBy_spliced_iff hname hstart]
  refine ⟨fun h ↦ ?_, fun h ↦ .of_value (.object (.members h))⟩
  rw [IsText] at h
  generalize hv : spliced name start text = v at h
  obtain ⟨hw₁, hvalue, hw₂⟩ := h
  obtain rfl := hw₂.eq_nil_of_last (by decide) hv.symm
  rw [List.append_nil] at hv
  obtain rfl := hw₁.eq_nil_of_head (by decide) hv.symm
  rw [List.nil_append] at hv
  rw [← hv, spliced, List.cons_append] at hvalue
  exact hvalue.isObject_of_head.members_of_head

/-- And then it is one object. -/
theorem isObjectText_spliced_iff (hname : IsChars name) (hstart : ∀ c ∈ start, isPlain c) :
    IsObjectText (spliced name start text) ↔ OpenString text :=
  ⟨fun h ↦ (isText_spliced_iff hname hstart).1 h.isText, fun h ↦
    .of_value (.members ((sepBy_spliced_iff hname hstart).2 h))⟩

end JsonText
