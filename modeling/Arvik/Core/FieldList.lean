import Arvik.Core.Http
import Mathlib.Data.List.TakeWhile

/-!
# Lists of field names

Some headers, `Vary` among them, list field names: each line is split at its commas, and the names
are read up to the white space around them and up to case. A header that is sent in several lines
lists what any of its lines lists.

There are two readings of a line, and the module is about when they agree. What the protocol says of
a list is said of the bytes of its lines, one character for each byte (`chars`, `elements`). What
the program does, it does to the text of a line, if it can be read as text, with white space in the
sense of Unicode. In a line that can be read the only white space is blanks and tabs, so both find
the same elements (`elements_of_toStr`). The claims about `Vary`, `Connection` and their like are
stated with the first reading and proved through the second.
-/

namespace FieldList

/-- The white space of header values. -/
def isOws (c : Char) : Bool :=
  c = ' ' || c = '\t'

/-- A member of a list without the white space around it. -/
def trimOws (s : Str) : Str :=
  ((s.dropWhile isOws).reverse.dropWhile isOws).reverse

/-- The field names one line lists; members that are no names are passed over. -/
def names (line : HeaderValue) : List HeaderName :=
  ((line.bytes.map fun b ↦ Char.ofNat b.toNat).splitOn ',').filterMap fun member ↦
    HeaderName.fromStr (trimOws member)

example : names (.fromStatic "Origin ,, ACCEPT-encoding") = [.origin, .acceptEncoding] := by
  decide

/-! ### Elements -/

/-- The characters of a value, one for each byte. -/
def chars (line : HeaderValue) : Str :=
  line.bytes.map fun b ↦ Char.ofNat b.toNat

/-- The elements of a list that is sent in several lines, which are joined by commas. -/
def elements (lines : List HeaderValue) : List Str :=
  (([','].intercalate (lines.map chars)).splitOn ',').map trimOws

example : elements [.fromStatic "\"a\" , W/\"b\"", .fromStatic "*"] =
    ["\"a\"".toList, "W/\"b\"".toList, ['*']] := by
  decide

/-- The elements of the first line come first. -/
theorem elements_cons_cons (line next : HeaderValue) (lines : List HeaderValue) :
    elements (line :: next :: lines) = elements [line] ++ elements (next :: lines) := by
  rw [elements, List.map_cons, List.map_cons, List.intercalate_cons_cons, List.append_assoc,
    List.singleton_append, List.splitOn_append_cons_self, List.map_append, elements, elements,
    List.map_singleton, List.intercalate_singleton, List.map_cons]

/-- The elements of several lines are those of each line. -/
theorem mem_elements_iff {lines : List HeaderValue} (hlines : lines ≠ []) {element : Str} :
    element ∈ elements lines ↔ ∃ line ∈ lines, element ∈ elements [line] := by
  induction lines with
  | nil => exact absurd rfl hlines
  | cons line lines ih =>
    rcases lines with - | ⟨next, lines⟩
    · simp
    · rw [elements_cons_cons, List.mem_append, ih (List.cons_ne_nil _ _)]
      simp only [List.mem_cons, exists_eq_or_imp]

/-- In a line that can be read, only blanks and tabs are white space. -/
theorem isWhitespace_of_toStr {line : HeaderValue} {text : Str} (h : line.toStr = some text)
    {c : Char} (hc : c ∈ text) : Text.isWhitespace c = isOws c := by
  have hall : ∀ n : Fin 127, n = 9 ∨ 32 ≤ n →
      Text.isWhitespace (Char.ofNat n) = isOws (Char.ofNat n) := by
    decide
  have hvisible := (HeaderValue.toStr_eq_some_iff.1 h).2 c hc
  have hlt : c.toNat < 127 := by omega
  rw [← Char.ofNat_toNat c]
  exact hall ⟨c.toNat, hlt⟩ (hvisible.imp (fun h ↦ Fin.ext h) And.left)

theorem chars_of_toStr {line : HeaderValue} {text : Str} (h : line.toStr = some text) :
    chars line = text :=
  Option.some.inj (Option.ite_none_right_eq_some.1 h).2

/-- What a line that can be read holds is trimmed as its text is. -/
theorem trimOws_of_toStr {line : HeaderValue} {text part : Str} (h : line.toStr = some text)
    (hpart : part ⊆ text) : trimOws part = Text.trim part := by
  have hdrop : ∀ {s : Str}, s ⊆ text → s.dropWhile Text.isWhitespace = s.dropWhile isOws := by
    intro s hs
    induction s with
    | nil => rfl
    | cons c s ih =>
      obtain ⟨hc, hs⟩ := List.cons_subset.1 hs
      rw [List.dropWhile_cons, List.dropWhile_cons, isWhitespace_of_toStr h hc, ih hs]
  have hstart : (part.dropWhile isOws).reverse ⊆ text :=
    fun c hc ↦ hpart (List.dropWhile_sublist _ |>.subset (List.mem_reverse.1 hc))
  rw [trimOws, Text.trim, Text.trimEnd, Text.trimStart, hdrop hpart, hdrop hstart]

/-- The elements of a line that can be read, as its text is split and trimmed. -/
theorem elements_of_toStr {line : HeaderValue} {text : Str} (h : line.toStr = some text) :
    elements [line] = (text.splitOn ',').map Text.trim := by
  rw [elements, List.map_singleton, List.intercalate_singleton, chars_of_toStr h]
  exact List.map_congr_left fun part hpart ↦ trimOws_of_toStr h (Text.mem_splitOn hpart).2

theorem trimOws_subset (s : Str) : trimOws s ⊆ s := fun _ hc ↦
  (List.dropWhile_sublist _).subset
    (List.mem_reverse.1 ((List.dropWhile_sublist _).subset (List.mem_reverse.1 hc)))

/-- White space apart, a text has the characters of its trim. -/
theorem mem_trimOws {s : Str} {c : Char} (h : c ∈ s) : isOws c ∨ c ∈ trimOws s := by
  have hdrop : ∀ {s : Str}, c ∈ s → isOws c ∨ c ∈ s.dropWhile isOws := by
    intro s hs
    rw [← List.takeWhile_append_dropWhile (p := isOws) (l := s), List.mem_append] at hs
    exact hs.imp_left fun hstart ↦ List.mem_takeWhile_imp hstart
  refine (hdrop h).elim .inl fun hstart ↦ ?_
  rw [trimOws, List.mem_reverse]
  exact hdrop (List.mem_reverse.2 hstart)

/-- A line can be read if it can without the white space around it. -/
theorem isSome_toStr_of_trimOws {line : HeaderValue}
    (h : ∀ c ∈ trimOws (chars line), 32 ≤ c.toNat ∧ c.toNat < 127) : line.toStr.isSome := by
  have hall : line.bytes.all isVisibleAscii := by
    refine List.all_eq_true.2 fun b hb ↦ ?_
    have hvalid : b.toNat.isValidChar := .inl (Nat.lt_trans b.toNat_lt (by decide))
    have hnat : (Char.ofNat b.toNat).toNat = b.toNat := by
      rw [Char.ofNat, dif_pos hvalid]
      rfl
    have hchar : Char.ofNat b.toNat ∈ chars line := List.mem_map_of_mem hb
    rw [HeaderValue.isVisibleAscii_iff]
    rcases mem_trimOws hchar with hows | hmem
    · rw [isOws, Bool.or_eq_true, decide_eq_true_eq, decide_eq_true_eq] at hows
      have hblank : b.toNat = 32 ∨ b.toNat = 9 :=
        hows.imp (fun h ↦ hnat.symm.trans (congrArg Char.toNat h))
          fun h ↦ hnat.symm.trans (congrArg Char.toNat h)
      omega
    · exact .inr (hnat ▸ h _ hmem)
  rw [HeaderValue.toStr, if_pos hall]
  rfl

/-! ### Field names in several lines -/

variable {H : Type} [Multimap H HeaderName HeaderValue]

/-- The field names a header lists, over all its lines. -/
def listed (headers : H) (field : HeaderName) : List HeaderName :=
  (Multimap.getAll headers field).flatMap names

theorem listed_insert (headers : H) (field key : HeaderName) (line : HeaderValue) :
    listed (Multimap.insert headers key line) field =
      if field = key then names line else listed headers field := by
  rw [listed, Multimap.getAll_insert]
  split
  · exact List.flatMap_singleton names line
  · rfl

theorem listed_remove_of_ne (headers : H) {field key : HeaderName} (h : field ≠ key) :
    listed (Multimap.remove headers key) field = listed headers field := by
  rw [listed, Multimap.getAll_remove, if_neg h, listed]

end FieldList
