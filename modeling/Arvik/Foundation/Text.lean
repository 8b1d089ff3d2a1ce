import Mathlib.Algebra.Group.Nat.Defs
import Mathlib.Data.List.Basic
import Mathlib.Data.List.Induction

/-!
# Text

Strings are lists of characters and byte strings lists of bytes, so that the string operations below
are structural and runs on them evaluate. The operations are those of a standard library that works
on Unicode text: splitting at a character, trimming white space, stripping a prefix, encoding as
UTF-8.

Trimming is characterized once (`trim_eq_self`, `trim_cons_of_isWhitespace`): a text whose two ends
are not white space is its own trim, and leading white space never matters. Splitting is
characterized by its first part (`splitOn_eq_cons_iff`), which ends before the first separator or at
the end of the text; a grammar with separators is read by an induction that takes one part at a
time. The two commute (`map_trim_splitOn_trim`), so it does not matter whether a list in a header is
trimmed before it is split.

UTF-8 is used through three facts: it is injective, decoding inverts it, and an ASCII character is
found among the bytes exactly where it stands in the text (`utf8_eq_append_cons`). With the last one
a grammar of ASCII delimiters may be read on the bytes or on the text alike.
-/

/-- A text. -/
abbrev Str := List Char

/-- A byte string. -/
abbrev Bytes := List UInt8

namespace Text

/-! ### Characters -/

/-- The Unicode `White_Space` property. -/
def isWhitespace (c : Char) : Bool :=
  (9 ≤ c.toNat && c.toNat ≤ 13) || c.toNat == 32 || c.toNat == 0x85 || c.toNat == 0xA0 ||
    c.toNat == 0x1680 || (0x2000 ≤ c.toNat && c.toNat ≤ 0x200A) || c.toNat == 0x2028 ||
    c.toNat == 0x2029 || c.toNat == 0x202F || c.toNat == 0x205F || c.toNat == 0x3000

/-- The visible ASCII characters, space excluded. -/
def isAsciiGraphic (c : Char) : Bool :=
  33 ≤ c.toNat && c.toNat ≤ 126

theorem isWhitespace_of_isAsciiGraphic {c : Char} (h : isAsciiGraphic c) :
    isWhitespace c = false := by
  simp only [isAsciiGraphic, Bool.and_eq_true, decide_eq_true_eq] at h
  simp only [isWhitespace, Bool.or_eq_false_iff, Bool.and_eq_false_iff, decide_eq_false_iff_not,
    beq_eq_false_iff_ne]
  omega

/-- The ASCII lower case of a character. -/
def toAsciiLowercase (c : Char) : Char :=
  if 65 ≤ c.toNat ∧ c.toNat ≤ 90 then Char.ofNat (c.toNat + 32) else c

theorem toNat_toAsciiLowercase (c : Char) :
    (toAsciiLowercase c).toNat = if 65 ≤ c.toNat ∧ c.toNat ≤ 90 then c.toNat + 32 else c.toNat := by
  rw [toAsciiLowercase]
  split
  · next h =>
    have hvalid : (c.toNat + 32).isValidChar := .inl (by omega)
    rw [Char.ofNat, dif_pos hvalid]
    rfl
  · rfl

/-- Only a character itself has it as its lower case, unless it is a letter. -/
theorem toAsciiLowercase_eq_iff {c d : Char} (hd : d.toNat < 65 ∨ 122 < d.toNat) :
    toAsciiLowercase c = d ↔ c = d := by
  rw [← Char.toNat_inj, toNat_toAsciiLowercase, ← Char.toNat_inj]
  split
  · constructor <;> intro h <;> omega
  · exact Iff.rfl

/-- Equality up to ASCII case. -/
def eqIgnoreAsciiCase (s t : Str) : Bool :=
  s.map toAsciiLowercase == t.map toAsciiLowercase

theorem eqIgnoreAsciiCase_iff {s t : Str} :
    eqIgnoreAsciiCase s t ↔ s.map toAsciiLowercase = t.map toAsciiLowercase := by
  rw [eqIgnoreAsciiCase, beq_iff_eq]

theorem map_toAsciiLowercase_eq_singleton_iff {s : Str} {d : Char}
    (hd : d.toNat < 65 ∨ 122 < d.toNat) : s.map toAsciiLowercase = [d] ↔ s = [d] := by
  rw [List.map_eq_singleton_iff]
  constructor
  · rintro ⟨c, rfl, hc⟩
    rw [(toAsciiLowercase_eq_iff hd).1 hc]
  · rintro rfl
    exact ⟨d, rfl, (toAsciiLowercase_eq_iff hd).2 rfl⟩

/-! ### Trimming -/

/-- The text without its leading white space. -/
def trimStart (s : Str) : Str :=
  s.dropWhile isWhitespace

/-- The text without its trailing white space. -/
def trimEnd (s : Str) : Str :=
  (s.reverse.dropWhile isWhitespace).reverse

/-- The text without white space at either end. -/
def trim (s : Str) : Str :=
  trimEnd (trimStart s)

theorem trimStart_cons_of_isWhitespace {c : Char} (s : Str) (hc : isWhitespace c) :
    trimStart (c :: s) = trimStart s :=
  List.dropWhile_cons_of_pos hc

theorem trim_cons_of_isWhitespace {c : Char} (s : Str) (hc : isWhitespace c) :
    trim (c :: s) = trim s := by
  rw [trim, trimStart_cons_of_isWhitespace s hc, trim]

theorem trimStart_eq_self {s : Str} (h : ∀ c, s.head? = some c → isWhitespace c = false) :
    trimStart s = s := by
  cases s with
  | nil => rfl
  | cons c s => exact List.dropWhile_cons_of_neg (by simp [h c rfl])

theorem trimEnd_eq_self {s : Str} (h : ∀ c, s.getLast? = some c → isWhitespace c = false) :
    trimEnd s = s := by
  have hrev : s.reverse.dropWhile isWhitespace = s.reverse :=
    trimStart_eq_self fun c hc ↦ h c (by rwa [List.head?_reverse] at hc)
  rw [trimEnd, hrev, List.reverse_reverse]

/-- A text neither of whose ends is white space is its own trim. -/
theorem trim_eq_self {s : Str} (hhead : ∀ c, s.head? = some c → isWhitespace c = false)
    (hlast : ∀ c, s.getLast? = some c → isWhitespace c = false) : trim s = s := by
  rw [trim, trimStart_eq_self hhead, trimEnd_eq_self hlast]

theorem trimEnd_prefix (s : Str) : trimEnd s <+: s := by
  have hsuffix : s.reverse.dropWhile isWhitespace <:+ s.reverse := List.dropWhile_suffix _
  rwa [← List.reverse_prefix, List.reverse_reverse] at hsuffix

theorem trim_sublist (s : Str) : (trim s).Sublist s := by
  have hend : trimEnd (trimStart s) <+: trimStart s := trimEnd_prefix _
  exact hend.sublist.trans (List.dropWhile_sublist _)

/-- Trimming the end stops at a character that is not white space. -/
theorem trim_cons_of_not_isWhitespace {c : Char} (s : Str) (hc : isWhitespace c = false) :
    trim (c :: s) = c :: trimEnd s := by
  have hstart : trimStart (c :: s) = c :: s := List.dropWhile_cons_of_neg (by simp [hc])
  rw [trim, hstart, trimEnd, List.reverse_cons, List.dropWhile_append]
  split
  · next hempty =>
    rw [List.dropWhile_cons_of_neg (by simp [hc]), trimEnd, List.isEmpty_iff.1 hempty]
    rfl
  · rw [List.reverse_concat, trimEnd]

/-- A text without white space is its own trim. -/
theorem trim_eq_self_of_forall {s : Str} (h : ∀ c ∈ s, isWhitespace c = false) : trim s = s :=
  trim_eq_self (fun c hc ↦ h c (List.mem_of_head? hc)) fun c hc ↦ h c (List.mem_of_getLast? hc)

/-- A trimmed text begins with no white space. -/
theorem isWhitespace_of_head?_trim {s : Str} {c : Char} (h : (trim s).head? = some c) :
    isWhitespace c = false := by
  obtain ⟨rest, hrest⟩ := trimEnd_prefix (trimStart s)
  have hstart : (trimStart s).head? = some c := by
    rw [← hrest, List.head?_append, ← trim, h]
    rfl
  have hnot := List.head?_dropWhile_not isWhitespace s
  rw [trimStart] at hstart
  rwa [hstart] at hnot

/-- A trimmed text ends with no white space. -/
theorem isWhitespace_of_getLast?_trim {s : Str} {c : Char} (h : (trim s).getLast? = some c) :
    isWhitespace c = false := by
  rw [trim, trimEnd, List.getLast?_reverse] at h
  have hnot := List.head?_dropWhile_not isWhitespace (trimStart s).reverse
  rwa [h] at hnot

theorem trim_trim (s : Str) : trim (trim s) = trim s :=
  trim_eq_self (fun _ ↦ isWhitespace_of_head?_trim) fun _ ↦ isWhitespace_of_getLast?_trim

/-- Trimming drops a last character that is white space. -/
theorem length_trim_lt {s : Str} {c : Char} (hlast : s.getLast? = some c)
    (hc : isWhitespace c) : (trim s).length < s.length := by
  have hsub : (trimStart s).length ≤ s.length := (List.dropWhile_sublist _).length_le
  rcases List.eq_nil_or_concat' (trimStart s) with hnil | ⟨ys, y, hys⟩
  · have hs : 0 < s.length := List.length_pos_of_mem (List.mem_of_getLast? hlast)
    rw [trim, hnil]
    exact hs
  · -- The start was trimmed only, so the last character is still the same.
    have hy : y = c := by
      have hsuff : trimStart s <:+ s := List.dropWhile_suffix _
      obtain ⟨p, hp⟩ := hsuff
      rw [← hp, hys, ← List.append_assoc, List.getLast?_concat] at hlast
      exact Option.some.inj hlast
    subst hy
    have hend : (trim s).length ≤ ys.length := by
      rw [trim, trimEnd, hys, List.reverse_concat, List.dropWhile_cons_of_pos hc,
        List.length_reverse]
      exact Nat.le_trans (List.dropWhile_sublist _).length_le (Nat.le_of_eq List.length_reverse)
    rw [hys, List.length_append, List.length_singleton] at hsub
    omega

/-- Trailing white space never matters. -/
theorem trim_concat_of_isWhitespace (s : Str) {c : Char} (hc : isWhitespace c) :
    trim (s ++ [c]) = trim s := by
  have hstart : trimEnd (trimStart s ++ [c]) = trimEnd (trimStart s) := by
    rw [trimEnd, List.reverse_concat, List.dropWhile_cons_of_pos hc, trimEnd]
  rw [trim, trim, trimStart, List.dropWhile_append]
  split
  · next hempty =>
    have hnil : trimStart s = [] := List.isEmpty_iff.1 hempty
    rw [List.dropWhile_cons_of_pos hc, hnil, List.dropWhile_nil]
  · exact hstart

/-! ### Splitting -/

/-- The text before and after the first occurrence of a character. -/
def splitOnce (sep : Char) : Str → Option (Str × Str)
  | [] => none
  | c :: s =>
    if c = sep then some ([], s) else (splitOnce sep s).map fun p ↦ (c :: p.1, p.2)

/-- Splitting once at a separator the first part does not contain. -/
theorem splitOnce_append {sep : Char} {s : Str} (t : Str) (h : sep ∉ s) :
    splitOnce sep (s ++ sep :: t) = some (s, t) := by
  induction s with
  | nil => simp [splitOnce]
  | cons c s ih =>
    obtain ⟨hc, hs⟩ := not_or.1 (List.mem_cons.not.1 h)
    rw [List.cons_append, splitOnce, if_neg (Ne.symm hc), ih hs]
    rfl

theorem splitOnce_of_not_mem {sep : Char} {s : Str} (h : sep ∉ s) : splitOnce sep s = none := by
  induction s with
  | nil => rfl
  | cons c s ih =>
    obtain ⟨hc, hs⟩ := List.ne_and_not_mem_of_not_mem_cons h
    rw [splitOnce, if_neg hc.symm, ih hs]
    rfl

theorem splitOnce_eq_some_iff {sep : Char} {s before after : Str} :
    splitOnce sep s = some (before, after) ↔ s = before ++ sep :: after ∧ sep ∉ before := by
  refine ⟨fun h ↦ ?_, fun ⟨hs, hbefore⟩ ↦ hs ▸ splitOnce_append after hbefore⟩
  rcases Decidable.em (sep ∈ s) with hmem | hmem
  · obtain ⟨start, rest, rfl, hstart⟩ := List.eq_append_cons_of_mem hmem
    rw [splitOnce_append rest hstart] at h
    obtain ⟨rfl, rfl⟩ := Prod.mk.inj (Option.some.inj h)
    exact ⟨rfl, hstart⟩
  · rw [splitOnce_of_not_mem hmem] at h
    cases h

/-- A character that is not the separator stays behind it. -/
theorem splitOnce_concat_of_ne {sep c : Char} (h : c ≠ sep) (s : Str) :
    splitOnce sep (s ++ [c]) = (splitOnce sep s).map fun p ↦ (p.1, p.2 ++ [c]) := by
  induction s with
  | nil => rw [List.nil_append, splitOnce_of_not_mem (by simp [h.symm])]; rfl
  | cons d s ih =>
    rw [List.cons_append, splitOnce, splitOnce]
    split
    · rfl
    · rw [ih]
      cases splitOnce sep s <;> rfl

/-- The parts of a split do not hold the separator, and what they hold is in the text. -/
theorem mem_splitOn {sep : Char} {s part : Str} (h : part ∈ s.splitOn sep) :
    sep ∉ part ∧ part ⊆ s := by
  induction s generalizing part with
  | nil =>
    rw [List.splitOn_nil, List.mem_singleton] at h
    subst h
    exact ⟨List.not_mem_nil, List.nil_subset _⟩
  | cons c s ih =>
    rw [List.splitOn_cons_eq_if_modifyHead] at h
    split at h
    · rcases List.mem_cons.1 h with rfl | h
      · exact ⟨List.not_mem_nil, List.nil_subset _⟩
      · exact ⟨(ih h).1, List.subset_cons_of_subset c (ih h).2⟩
    · next hc =>
      obtain ⟨first, rest, hs⟩ := List.exists_cons_of_ne_nil (List.splitOn_ne_nil sep s)
      rw [hs, List.modifyHead_cons] at h
      rw [hs] at ih
      rcases List.mem_cons.1 h with rfl | h
      · obtain ⟨hsep, hsub⟩ := ih List.mem_cons_self
        refine ⟨fun hmem ↦ ?_, List.cons_subset_cons c hsub⟩
        rcases List.mem_cons.1 hmem with rfl | hmem
        · exact hc (beq_self_eq_true _)
        · exact hsep hmem
      · obtain ⟨hsep, hsub⟩ := ih (List.mem_cons_of_mem first h)
        exact ⟨hsep, List.subset_cons_of_subset c hsub⟩

/-- The parts of a split are taken from the text in order. -/
theorem sublist_of_mem_splitOn {sep : Char} {s part : Str} (h : part ∈ s.splitOn sep) :
    part.Sublist s := by
  have hflatten : (s.splitOn sep).flatten.Sublist s := by
    clear h
    induction s with
    | nil => exact List.Sublist.refl _
    | cons c s ih =>
      obtain ⟨first, rest, hs⟩ := List.exists_cons_of_ne_nil (List.splitOn_ne_nil sep s)
      rw [List.splitOn_cons_eq_if_modifyHead]
      split
      · exact ih.cons c
      · rw [hs] at ih ⊢
        exact ih.cons_cons c
  exact (List.sublist_flatten_of_mem h).trans hflatten

/-- A text that does not hold the separator stays in the first part. -/
theorem splitOn_append_of_not_mem {sep : Char} {s : Str} (h : sep ∉ s) (t : Str) :
    (s ++ t).splitOn sep = (t.splitOn sep).modifyHead (s ++ ·) := by
  induction s with
  | nil =>
    rw [List.nil_append]
    cases t.splitOn sep <;> rfl
  | cons c s ih =>
    obtain ⟨hc, hs⟩ := List.ne_and_not_mem_of_not_mem_cons h
    rw [List.cons_append, List.splitOn_cons_eq_if_modifyHead, if_neg (by simp [hc.symm]), ih hs,
      List.modifyHead_modifyHead]
    rfl

/-- A text with two parts at least goes on behind its first separator. -/
theorem splitOn_eq_cons_cons_iff {sep : Char} {s part next : Str} {parts : List Str} :
    s.splitOn sep = part :: next :: parts ↔
      sep ∉ part ∧ ∃ rest, s = part ++ sep :: rest ∧ rest.splitOn sep = next :: parts := by
  constructor
  · intro h
    have hpart : sep ∉ part := (mem_splitOn (h ▸ List.mem_cons_self)).1
    have hjoin : [sep].intercalate (s.splitOn sep) = s := List.intercalate_splitOn sep
    have hs : s = part ++ sep :: [sep].intercalate (next :: parts) := by
      rw [← hjoin, h, List.intercalate_cons_cons, List.append_assoc, List.singleton_append]
    refine ⟨hpart, _, hs, ?_⟩
    rw [hs, List.splitOn_append_cons_self_of_not_mem hpart] at h
    exact (List.cons.inj h).2
  · rintro ⟨hpart, rest, rfl, hrest⟩
    rw [List.splitOn_append_cons_self_of_not_mem hpart, hrest]

/-- The first part of a text ends before its first separator or at its end. -/
theorem splitOn_eq_cons_iff {sep : Char} {s part : Str} :
    (∃ parts, s.splitOn sep = part :: parts) ↔
      sep ∉ part ∧ ∃ rest, s = part ++ rest ∧ (rest = [] ∨ rest.head? = some sep) := by
  constructor
  · rintro ⟨- | ⟨next, parts⟩, h⟩
    · have hjoin : [sep].intercalate (s.splitOn sep) = s := List.intercalate_splitOn sep
      have hs : s = part := by rw [← hjoin, h, List.intercalate_singleton]
      exact ⟨(mem_splitOn (h ▸ List.mem_cons_self)).1, [], by rw [hs, List.append_nil], .inl rfl⟩
    · obtain ⟨hpart, rest, hs, -⟩ := splitOn_eq_cons_cons_iff.1 h
      exact ⟨hpart, sep :: rest, hs, .inr rfl⟩
  · rintro ⟨hpart, rest, rfl, hrest⟩
    rcases rest with - | ⟨c, rest⟩
    · exact ⟨[], by rw [List.append_nil, List.splitOn_eq_singleton hpart]⟩
    · have hc : c = sep := Option.some.inj (hrest.resolve_left (List.cons_ne_nil c rest))
      exact ⟨rest.splitOn sep, hc ▸ List.splitOn_append_cons_self_of_not_mem (hc ▸ hpart) rest⟩

/-- A character that is not the separator stays in the part before it. -/
theorem splitOn_concat_of_ne {sep c : Char} (h : c ≠ sep) (s : Str) :
    ∃ parts last, s.splitOn sep = parts ++ [last] ∧
      (s ++ [c]).splitOn sep = parts ++ [last ++ [c]] := by
  induction s with
  | nil => exact ⟨[], [], rfl, List.splitOn_eq_singleton (by simp [h.symm])⟩
  | cons d s ih =>
    obtain ⟨parts, last, hs, hsc⟩ := ih
    rw [List.cons_append, List.splitOn_cons_eq_if_modifyHead, List.splitOn_cons_eq_if_modifyHead,
      hs, hsc]
    split
    · exact ⟨[] :: parts, last, rfl, rfl⟩
    · cases parts with
      | nil => exact ⟨[], d :: last, rfl, rfl⟩
      | cons part parts => exact ⟨(d :: part) :: parts, last, rfl, rfl⟩

/-- The trimmed parts of a text are those of the trimmed text. -/
theorem map_trim_splitOn_trim {sep : Char} (h : isWhitespace sep = false) (s : Str) :
    ((trim s).splitOn sep).map trim = (s.splitOn sep).map trim := by
  have hne : ∀ {c}, isWhitespace c → c ≠ sep := by
    rintro c hc rfl
    rw [h] at hc
    cases hc
  have hstart : ∀ s, ((trimStart s).splitOn sep).map trim = (s.splitOn sep).map trim := by
    intro s
    induction s with
    | nil => rfl
    | cons c s ih =>
      by_cases hc : isWhitespace c
      · rw [trimStart_cons_of_isWhitespace s hc, ih, List.splitOn_cons_eq_if_modifyHead,
          if_neg (by simp [hne hc])]
        cases s.splitOn sep with
        | nil => rfl
        | cons part parts =>
          rw [List.modifyHead_cons, List.map_cons, List.map_cons, trim_cons_of_isWhitespace _ hc]
      · rw [trimStart, List.dropWhile_cons_of_neg hc]
  have hend : ∀ s, ((trimEnd s).splitOn sep).map trim = (s.splitOn sep).map trim := by
    intro s
    induction s using List.reverseRecOn with
    | nil => rfl
    | append_singleton s c ih =>
      by_cases hc : isWhitespace c
      · obtain ⟨parts, last, hs, hsc⟩ := splitOn_concat_of_ne (hne hc) s
        have hdrop : trimEnd (s ++ [c]) = trimEnd s := by
          rw [trimEnd, List.reverse_concat, List.dropWhile_cons_of_pos hc, trimEnd]
        rw [hdrop, ih, hs, hsc, List.map_append, List.map_append, List.map_singleton,
          List.map_singleton, trim_concat_of_isWhitespace _ hc]
      · rw [trimEnd, List.reverse_concat, List.dropWhile_cons_of_neg hc, ← List.reverse_concat,
          List.reverse_reverse]
  rw [trim, hend, hstart]

/-- What stands before and after the first separator of a trimmed text, trimmed as well. -/
theorem map_trim_splitOnce_trim {sep : Char} (h : isWhitespace sep = false) (s : Str) :
    (splitOnce sep (trim s)).map (Prod.map trim trim) =
      (splitOnce sep s).map (Prod.map trim trim) := by
  have hne : ∀ {c}, isWhitespace c → c ≠ sep := by
    rintro c hc rfl
    rw [h] at hc
    cases hc
  have hstart : ∀ s, (splitOnce sep (trimStart s)).map (Prod.map trim trim) =
      (splitOnce sep s).map (Prod.map trim trim) := by
    intro s
    induction s with
    | nil => rfl
    | cons c s ih =>
      by_cases hc : isWhitespace c
      · rw [trimStart_cons_of_isWhitespace s hc, ih, splitOnce, if_neg (hne hc), Option.map_map]
        congr 1
        funext p
        exact Prod.ext (trim_cons_of_isWhitespace p.1 hc).symm rfl
      · rw [trimStart, List.dropWhile_cons_of_neg hc]
  have hend : ∀ s, (splitOnce sep (trimEnd s)).map (Prod.map trim trim) =
      (splitOnce sep s).map (Prod.map trim trim) := by
    intro s
    induction s using List.reverseRecOn with
    | nil => rfl
    | append_singleton s c ih =>
      by_cases hc : isWhitespace c
      · have hdrop : trimEnd (s ++ [c]) = trimEnd s := by
          rw [trimEnd, List.reverse_concat, List.dropWhile_cons_of_pos hc, trimEnd]
        rw [hdrop, ih, splitOnce_concat_of_ne (hne hc), Option.map_map]
        congr 1
        funext p
        exact Prod.ext rfl (trim_concat_of_isWhitespace p.2 hc).symm
      · rw [trimEnd, List.reverse_concat, List.dropWhile_cons_of_neg hc, ← List.reverse_concat,
          List.reverse_reverse]
  rw [trim, hend, hstart]

/-- The text occurs in another one. -/
def contains (needle : Str) : Str → Bool
  | [] => needle.isEmpty
  | c :: s => needle.isPrefixOf (c :: s) || contains needle s

/-- The rest of the text after a prefix it starts with. -/
def stripPrefix : Str → Str → Option Str
  | [], s => some s
  | _ :: _, [] => none
  | p :: ps, c :: s => if p = c then stripPrefix ps s else none

theorem stripPrefix_eq_some_iff {p s t : Str} : stripPrefix p s = some t ↔ s = p ++ t := by
  induction p generalizing s with
  | nil => simp [stripPrefix]
  | cons c p ih =>
    cases s with
    | nil => simp [stripPrefix]
    | cons d s =>
      rw [stripPrefix]
      by_cases hcd : c = d
      · rw [if_pos hcd, ih, hcd]
        simp
      · simp [hcd, Ne.symm hcd]

/-- The text before a suffix. -/
def stripSuffix (p s : Str) : Option Str :=
  (stripPrefix p.reverse s.reverse).map List.reverse

theorem stripSuffix_eq_some_iff {p s t : Str} : stripSuffix p s = some t ↔ s = t ++ p := by
  rw [stripSuffix, Option.map_eq_some_iff]
  constructor
  · rintro ⟨rest, hrest, rfl⟩
    rw [stripPrefix_eq_some_iff] at hrest
    rw [← List.reverse_reverse s, hrest, List.reverse_append, List.reverse_reverse]
  · rintro rfl
    exact ⟨t.reverse, stripPrefix_eq_some_iff.2 List.reverse_append, List.reverse_reverse t⟩

/-- A number below `2 ^ w` in decimal, with an optional plus sign. -/
def parseUnsigned (w : ℕ) (s : Str) : Option ℕ :=
  let digits := (stripPrefix ['+'] s).getD s
  if digits ≠ [] ∧ digits.all Char.isDigit ∧ Nat.ofDigitChars 10 digits 0 < 2 ^ w then
    some (Nat.ofDigitChars 10 digits 0)
  else
    none

example : parseUnsigned 64 "+0042".toList = some 42 := by decide

/-- The digits of a number are those below the base. -/
theorem exists_digitChar_of_mem_toDigits {base n : ℕ} (hbase : 0 < base) {c : Char}
    (hc : c ∈ Nat.toDigits base n) : ∃ d < base, c = Nat.digitChar d := by
  have hcore : ∀ (fuel n : ℕ) (ds : List Char), (∀ c ∈ ds, ∃ d < base, c = Nat.digitChar d) →
      ∀ c ∈ Nat.toDigitsCore base fuel n ds, ∃ d < base, c = Nat.digitChar d := by
    intro fuel
    induction fuel with
    | zero => exact fun n ds hds ↦ hds
    | succ fuel ih =>
      intro n ds hds
      have hcons : ∀ c ∈ Nat.digitChar (n % base) :: ds, ∃ d < base, c = Nat.digitChar d :=
        List.forall_mem_cons.2 ⟨⟨_, Nat.mod_lt _ hbase, rfl⟩, hds⟩
      rw [Nat.toDigitsCore]
      split
      · exact hcons
      · exact ih _ _ hcons
  exact hcore _ _ [] (fun _ h ↦ absurd h List.not_mem_nil) c hc

/-- What a joined list holds comes from the separator or from a part. -/
theorem mem_intercalate {α : Type*} {sep : List α} {xs : List (List α)} {a : α}
    (h : a ∈ sep.intercalate xs) : a ∈ sep ∨ ∃ x ∈ xs, a ∈ x := by
  induction xs with
  | nil => exact absurd h List.not_mem_nil
  | cons x xs ih =>
    cases xs with
    | nil => exact .inr ⟨x, List.mem_cons_self, by rwa [List.intercalate_singleton] at h⟩
    | cons y ys =>
      rw [List.intercalate_cons_cons] at h
      rcases List.mem_append.1 h with hx | hrest
      · rcases List.mem_append.1 hx with hx | hsep
        · exact .inr ⟨x, List.mem_cons_self, hx⟩
        · exact .inl hsep
      · rcases ih hrest with hsep | ⟨z, hz, ha⟩
        · exact .inl hsep
        · exact .inr ⟨z, List.mem_cons_of_mem _ hz, ha⟩

/-- A joined list holds what its parts hold. -/
theorem mem_intercalate_of_mem {α : Type*} {sep : List α} {xs : List (List α)} {x : List α} {a : α}
    (hx : x ∈ xs) (ha : a ∈ x) : a ∈ sep.intercalate xs := by
  induction xs with
  | nil => cases hx
  | cons y ys ih =>
    cases ys with
    | nil =>
      rw [List.mem_singleton.1 hx] at ha
      rwa [List.intercalate_singleton]
    | cons z zs =>
      rw [List.intercalate_cons_cons, List.mem_append, List.mem_append]
      rcases List.mem_cons.1 hx with rfl | hx
      · exact .inl (.inl ha)
      · exact .inr (ih hx)

/-- Mapping commutes with joining. -/
theorem map_intercalate {α β : Type*} (f : α → β) (sep : List α) (xs : List (List α)) :
    (sep.intercalate xs).map f = (sep.map f).intercalate (xs.map (List.map f)) := by
  induction xs with
  | nil => rfl
  | cons x xs ih =>
    cases xs with
    | nil => simp [List.intercalate_singleton]
    | cons y ys =>
      simp only [List.map_cons, List.intercalate_cons_cons, List.map_append] at ih ⊢
      rw [ih]

/-- The items of a text that lists them with commas; white space around them and empty items do not
count. -/
def listItems (s : Str) : List Str :=
  ((s.splitOn ',').map trim).filter fun item ↦ item ≠ []

/-- A list of words is read back from the text that joins them. -/
theorem listItems_intercalate {words : List Str}
    (h : ∀ word ∈ words, word ≠ [] ∧ ',' ∉ word ∧ ∀ c ∈ word, isWhitespace c = false) :
    listItems (", ".toList.intercalate words) = words := by
  induction words with
  | nil => rfl
  | cons word words ih =>
    obtain ⟨⟨hne, hcomma, hword⟩, hwords⟩ := List.forall_mem_cons.1 h
    have htrim := trim_eq_self_of_forall hword
    cases words with
    | nil =>
      rw [List.intercalate_singleton, listItems, List.splitOn_eq_singleton hcomma,
        List.map_singleton, htrim]
      exact List.filter_cons_of_pos (by simpa using hne)
    | cons next words =>
      have hspace : ∀ s, ((' ' :: s).splitOn ',').map trim = (s.splitOn ',').map trim := fun s ↦ by
        rw [← map_trim_splitOn_trim (by decide), trim_cons_of_isWhitespace s (by decide),
          map_trim_splitOn_trim (by decide)]
      have hjoin : ", ".toList.intercalate (word :: next :: words) =
          word ++ ',' :: (' ' :: ", ".toList.intercalate (next :: words)) := by
        rw [List.intercalate_cons_cons]
        exact List.append_assoc ..
      rw [hjoin, listItems, List.splitOn_append_cons_self_of_not_mem hcomma, List.map_cons, htrim,
        hspace, List.filter_cons_of_pos (by simpa using hne), ← listItems, ih hwords]

/-! ### UTF-8 -/

/-- The UTF-8 encoding of a text. -/
def utf8 (s : Str) : Bytes :=
  s.flatMap String.utf8EncodeChar

@[simp]
theorem utf8_nil : utf8 [] = [] :=
  rfl

theorem utf8_append (s t : Str) : utf8 (s ++ t) = utf8 s ++ utf8 t :=
  List.flatMap_append

/-- An ASCII character is encoded as the byte of its code point. -/
theorem utf8EncodeChar_of_ascii {c : Char} (h : c.toNat < 128) :
    String.utf8EncodeChar c = [UInt8.ofNat c.toNat] := by
  have hval : c.val.toNat ≤ 127 := Nat.le_of_lt_succ h
  simp only [String.utf8EncodeChar, if_pos hval]
  rfl

/-- The byte of an ASCII character is its code point. -/
theorem toNat_ofNat_of_ascii {c : Char} (h : c.toNat < 128) :
    (UInt8.ofNat c.toNat).toNat = c.toNat := by
  rw [UInt8.toNat_ofNat']
  exact Nat.mod_eq_of_lt (by omega)

theorem utf8_of_ascii {s : Str} (h : ∀ c ∈ s, c.toNat < 128) :
    utf8 s = s.map fun c ↦ UInt8.ofNat c.toNat := by
  induction s with
  | nil => rfl
  | cons c s ih =>
    have hc := utf8EncodeChar_of_ascii (h c List.mem_cons_self)
    have hs := ih fun d hd ↦ h d (List.mem_cons_of_mem _ hd)
    simp only [utf8, List.flatMap_cons] at hs ⊢
    rw [hc, hs]
    rfl

/-- The bytes of a character outside ASCII are outside ASCII. -/
theorem le_of_mem_utf8EncodeChar {c : Char} (h : 128 ≤ c.toNat) {b : UInt8}
    (hb : b ∈ String.utf8EncodeChar c) : 128 ≤ b.toNat := by
  have hone : ¬ c.val.toNat ≤ 127 := Nat.not_le.2 h
  have hnat : ∀ {v lead : ℕ}, v + lead < 256 → 128 ≤ lead →
      128 ≤ (UInt8.ofNat (v + lead)).toNat := fun hlt hlead ↦ by
    rw [UInt8.toNat_ofNat', Nat.mod_eq_of_lt hlt]
    omega
  have hnext : ∀ v : ℕ, 128 ≤ (UInt8.ofNat (v % 64 + 128)).toNat := fun v ↦
    hnat (by omega) (by omega)
  simp only [String.utf8EncodeChar, if_neg hone] at hb
  split at hb
  · rcases List.mem_pair.1 hb with rfl | rfl
    · exact hnat (by omega) (by omega)
    · exact hnext _
  · split at hb
    · simp only [List.mem_cons, List.not_mem_nil, or_false] at hb
      rcases hb with rfl | rfl | rfl
      · exact hnat (by omega) (by omega)
      · exact hnext _
      · exact hnext _
    · simp only [List.mem_cons, List.not_mem_nil, or_false] at hb
      rcases hb with rfl | rfl | rfl | rfl
      · exact hnat (by omega) (by omega)
      · exact hnext _
      · exact hnext _
      · exact hnext _

/-- The byte of an ASCII character occurs for that character only. -/
theorem mem_utf8_iff {c : Char} (hc : c.toNat < 128) {s : Str} :
    UInt8.ofNat c.toNat ∈ utf8 s ↔ c ∈ s := by
  rw [utf8, List.mem_flatMap]
  constructor
  · rintro ⟨d, hd, hmem⟩
    rcases Nat.lt_or_ge d.toNat 128 with hlt | hle
    · rw [utf8EncodeChar_of_ascii hlt, List.mem_singleton, ← UInt8.toNat_inj,
        toNat_ofNat_of_ascii hc, toNat_ofNat_of_ascii hlt] at hmem
      exact Char.toNat_inj.1 hmem ▸ hd
    · have hbyte := le_of_mem_utf8EncodeChar hle hmem
      rw [toNat_ofNat_of_ascii hc] at hbyte
      omega
  · intro h
    exact ⟨c, h, by rw [utf8EncodeChar_of_ascii hc]; exact List.mem_singleton_self _⟩

/-- The encoding of a text is cut at the byte of an ASCII character where the text is cut there. -/
theorem utf8_eq_append_cons {c : Char} (hc : c.toNat < 128) {s : Str} {before after : Bytes}
    (h : utf8 s = before ++ UInt8.ofNat c.toNat :: after) :
    ∃ left right, s = left ++ c :: right ∧ utf8 left = before ∧ utf8 right = after := by
  induction s generalizing before with
  | nil => exact absurd h (by simp)
  | cons d s ih =>
    rw [← List.singleton_append, utf8_append, List.append_eq_append_iff] at h
    obtain ⟨behind, rfl, hs⟩ | ⟨inside, hd, hs⟩ := h
    · obtain ⟨left, right, rfl, rfl, rfl⟩ := ih hs
      exact ⟨d :: left, right, rfl, utf8_append [d] left, rfl⟩
    · rcases inside with - | ⟨b, inside⟩
      · have hempty : utf8 s = [] ++ UInt8.ofNat c.toNat :: after := hs.symm
        obtain ⟨left, right, rfl, hleft, rfl⟩ := ih hempty
        refine ⟨d :: left, right, rfl, ?_, rfl⟩
        rw [← List.singleton_append, utf8_append, hleft, hd, List.append_nil, List.append_nil]
      · obtain ⟨rfl, hafter⟩ := List.cons.inj hs
        -- The byte is one of the character, so it is all there is of it.
        have hmem : c ∈ [d] := (mem_utf8_iff hc).1 (hd ▸ by simp)
        obtain rfl := List.mem_singleton.1 hmem
        have hbyte : utf8 [c] = [UInt8.ofNat c.toNat] := by
          rw [utf8, List.flatMap_singleton, utf8EncodeChar_of_ascii hc]
        rw [hbyte, List.singleton_eq_append_iff] at hd
        obtain ⟨rfl, hinside⟩ | ⟨rfl, hinside⟩ := hd
        · obtain ⟨-, rfl⟩ := List.cons.inj hinside
          exact ⟨[], s, rfl, rfl, hafter.symm⟩
        · cases hinside

/-- The text of which a byte string is the UTF-8 encoding, if there is one. -/
def fromUtf8 (bytes : Bytes) : Option Str :=
  (bytes.toByteArray.utf8Decode?).map Array.toList

theorem fromUtf8_utf8 (s : Str) : fromUtf8 (utf8 s) = some s := by
  have h : (utf8 s).toByteArray = s.utf8Encode := rfl
  rw [fromUtf8, h, List.utf8Decode?_utf8Encode]
  simp

/-- What decodes is an encoding: decoding inverts `utf8`. -/
theorem fromUtf8_eq_some_iff {bytes : Bytes} {s : Str} :
    fromUtf8 bytes = some s ↔ bytes = utf8 s := by
  refine ⟨fun h ↦ ?_, fun h ↦ h ▸ fromUtf8_utf8 s⟩
  obtain ⟨chars, hdec, rfl⟩ := Option.map_eq_some_iff.1 h
  have hsome : bytes.toByteArray.utf8Decode?.isSome := by rw [hdec]; rfl
  have henc := ByteArray.utf8Encode_get_utf8Decode? (h := hsome)
  have hchars : bytes.toByteArray.utf8Decode?.get hsome = chars := by
    simp only [hdec, Option.get_some]
  rw [hchars] at henc
  have hlist := congrArg (fun b : ByteArray ↦ b.data.toList) henc
  simpa [utf8, List.utf8Encode] using hlist.symm

theorem utf8_injective : Function.Injective utf8 := fun s t h ↦
  Option.some.inj ((fromUtf8_utf8 s).symm.trans (h ▸ fromUtf8_utf8 t))

theorem utf8_eq_nil_iff {s : Str} : utf8 s = [] ↔ s = [] :=
  utf8_injective.eq_iff' utf8_nil

/-- A lossy decoder between two bytes: how many continuation bytes it waits for, the bounds of the
next one, and the bits read so far. -/
structure LossyDecoder where
  needed : ℕ := 0
  lower : UInt8 := 0x80
  upper : UInt8 := 0xBF
  bits : ℕ := 0

/-- The first byte of a character, or a byte that cannot be one. -/
def LossyDecoder.start (b : UInt8) : LossyDecoder × Str :=
  if b < 0x80 then ({}, [Char.ofNat b.toNat])
  else if 0xC2 ≤ b ∧ b ≤ 0xDF then (⟨1, 0x80, 0xBF, b.toNat - 0xC0⟩, [])
  else if 0xE0 ≤ b ∧ b ≤ 0xEF then
    (⟨2, if b = 0xE0 then 0xA0 else 0x80, if b = 0xED then 0x9F else 0xBF, b.toNat - 0xE0⟩, [])
  else if 0xF0 ≤ b ∧ b ≤ 0xF4 then
    (⟨3, if b = 0xF0 then 0x90 else 0x80, if b = 0xF4 then 0x8F else 0xBF, b.toNat - 0xF0⟩, [])
  else ({}, ['\uFFFD'])

/-- One byte. A character cut short is replaced, and the byte starts the next one. -/
def LossyDecoder.byte (self : LossyDecoder) (b : UInt8) : LossyDecoder × Str :=
  if self.needed = 0 then start b
  else if self.lower ≤ b ∧ b ≤ self.upper then
    let bits := self.bits * 64 + b.toNat % 64
    if self.needed = 1 then ({}, [Char.ofNat bits]) else ({ needed := self.needed - 1, bits }, [])
  else ((start b).1, '\uFFFD' :: (start b).2)

/-- Decode the remaining bytes. -/
def LossyDecoder.run : LossyDecoder → Bytes → Str
  | self, [] => if self.needed = 0 then [] else ['\uFFFD']
  | self, b :: rest => (self.byte b).2 ++ (self.byte b).1.run rest

/-- The text of a byte string, with whatever is not UTF-8 replaced. -/
def fromUtf8Lossy (bytes : Bytes) : Str :=
  LossyDecoder.run {} bytes

example : fromUtf8Lossy (utf8 "é€😀".toList ++ [0xE2, 0x82, 0x61, 0xFF, 0xF0]) =
    "é€😀\uFFFDa\uFFFD\uFFFD".toList := by
  decide

namespace LossyDecoder

/-- The last byte of a character. -/
theorem run_last {lower upper b : UInt8} (hlower : lower.toNat ≤ b.toNat)
    (hupper : b.toNat ≤ upper.toNat) (bits : ℕ) (rest : Bytes) :
    run ⟨1, lower, upper, bits⟩ (b :: rest) =
      Char.ofNat (bits * 64 + b.toNat % 64) :: run {} rest := by
  have hbetween := And.intro (UInt8.le_iff_toNat_le.2 hlower) (UInt8.le_iff_toNat_le.2 hupper)
  rw [run, byte, if_neg Nat.one_ne_zero]
  simp only [if_pos hbetween]
  rfl

/-- A byte within a character, not the last. -/
theorem run_more {lower upper b : UInt8} (hlower : lower.toNat ≤ b.toNat)
    (hupper : b.toNat ≤ upper.toNat) (n bits : ℕ) (rest : Bytes) :
    run ⟨n + 2, lower, upper, bits⟩ (b :: rest) =
      run ⟨n + 1, 0x80, 0xBF, bits * 64 + b.toNat % 64⟩ rest := by
  have hbetween := And.intro (UInt8.le_iff_toNat_le.2 hlower) (UInt8.le_iff_toNat_le.2 hupper)
  rw [run, byte, if_neg (Nat.succ_ne_zero _)]
  simp only [if_pos hbetween]
  rfl

/-- The first byte of a character of more than one. -/
theorem run_start {b : UInt8} {after : LossyDecoder} (h : start b = (after, [])) (rest : Bytes) :
    run {} (b :: rest) = run after rest := by
  have hbyte : byte {} b = start b := rfl
  rw [run, hbyte, h]
  rfl

theorem start_two {b : UInt8} (h : 0xC2 ≤ b.toNat ∧ b.toNat ≤ 0xDF) :
    start b = (⟨1, 0x80, 0xBF, b.toNat - 0xC0⟩, []) := by
  simp only [start, UInt8.lt_iff_toNat_lt, UInt8.le_iff_toNat_le, UInt8.reduceToNat]
  rw [if_neg (by omega), if_pos h]

theorem start_three {b : UInt8} (h : 0xE0 ≤ b.toNat ∧ b.toNat ≤ 0xEF) :
    start b = (⟨2, if b.toNat = 0xE0 then 0xA0 else 0x80, if b.toNat = 0xED then 0x9F else 0xBF,
      b.toNat - 0xE0⟩, []) := by
  simp only [start, UInt8.lt_iff_toNat_lt, UInt8.le_iff_toNat_le, ← UInt8.toNat_inj,
    UInt8.reduceToNat]
  rw [if_neg (by omega), if_neg (by omega), if_pos h]

theorem start_four {b : UInt8} (h : 0xF0 ≤ b.toNat ∧ b.toNat ≤ 0xF4) :
    start b = (⟨3, if b.toNat = 0xF0 then 0x90 else 0x80, if b.toNat = 0xF4 then 0x8F else 0xBF,
      b.toNat - 0xF0⟩, []) := by
  simp only [start, UInt8.lt_iff_toNat_lt, UInt8.le_iff_toNat_le, ← UInt8.toNat_inj,
    UInt8.reduceToNat]
  rw [if_neg (by omega), if_neg (by omega), if_neg (by omega), if_pos h]

theorem toNat_ofNat_of_lt {n : ℕ} (h : n < 256) : (UInt8.ofNat n).toNat = n := by
  rw [UInt8.toNat_ofNat']
  exact Nat.mod_eq_of_lt h

/-! The bytes after the first. -/

theorem toNat_next (n : ℕ) : (UInt8.ofNat (n % 64 + 128)).toNat = n % 64 + 128 :=
  toNat_ofNat_of_lt (by omega)

theorem lower_le_next (n : ℕ) : (0x80 : UInt8).toNat ≤ (UInt8.ofNat (n % 64 + 128)).toNat := by
  rw [toNat_next]
  exact Nat.le_add_left ..

theorem next_le_upper (n : ℕ) : (UInt8.ofNat (n % 64 + 128)).toNat ≤ (0xBF : UInt8).toNat := by
  rw [toNat_next]
  show _ ≤ 191
  omega

/-! The encodings of each length. -/

theorem run_one {v : ℕ} (h : v < 0x80) (rest : Bytes) :
    run {} (UInt8.ofNat v :: rest) = Char.ofNat v :: run {} rest := by
  have hfirst : (UInt8.ofNat v).toNat = v := toNat_ofNat_of_lt (by omega)
  have hstart : byte {} (UInt8.ofNat v) = start (UInt8.ofNat v) := rfl
  have hlt : UInt8.ofNat v < 0x80 := by
    rw [UInt8.lt_iff_toNat_lt, hfirst]
    exact h
  rw [run, hstart, start, if_pos hlt, hfirst]
  rfl

theorem run_two {v : ℕ} (hlower : 0x80 ≤ v) (hupper : v ≤ 0x7FF) (rest : Bytes) :
    run {} (UInt8.ofNat (v / 64 % 32 + 192) :: UInt8.ofNat (v % 64 + 128) :: rest) =
      Char.ofNat v :: run {} rest := by
  have hfirst : (UInt8.ofNat (v / 64 % 32 + 192)).toNat = v / 64 + 192 := by
    rw [toNat_ofNat_of_lt (by omega)]
    omega
  have hbits : (v / 64 + 192 - 192) * 64 + (v % 64 + 128) % 64 = v := by omega
  rw [run_start (start_two (by rw [hfirst]; omega)), run_last (lower_le_next v) (next_le_upper v),
    hfirst, toNat_next, hbits]

theorem run_three {v : ℕ} (hlower : 0x800 ≤ v) (hupper : v ≤ 0xFFFF)
    (hvalid : v < 0xD800 ∨ 0xDFFF < v) (rest : Bytes) :
    run {} (UInt8.ofNat (v / 4096 % 16 + 224) :: UInt8.ofNat (v / 64 % 64 + 128) ::
      UInt8.ofNat (v % 64 + 128) :: rest) = Char.ofNat v :: run {} rest := by
  have hfirst : (UInt8.ofNat (v / 4096 % 16 + 224)).toNat = v / 4096 + 224 := by
    rw [toNat_ofNat_of_lt (by omega)]
    omega
  have hbits : ((v / 4096 + 224 - 224) * 64 + (v / 64 % 64 + 128) % 64) * 64 +
      (v % 64 + 128) % 64 = v := by omega
  rw [run_start (start_three (by rw [hfirst]; omega)), hfirst, run_more ?_ ?_,
    run_last (lower_le_next v) (next_le_upper v), toNat_next, toNat_next, hbits]
  -- The second byte is bounded more closely after the least and the greatest first ones.
  · rw [toNat_next]
    split
    · show 160 ≤ _
      omega
    · exact Nat.le_add_left ..
  · rw [toNat_next]
    split
    · show _ ≤ 159
      omega
    · show _ ≤ 191
      omega

theorem run_four {v : ℕ} (hlower : 0x10000 ≤ v) (hupper : v < 0x110000) (rest : Bytes) :
    run {} (UInt8.ofNat (v / 262144 % 8 + 240) :: UInt8.ofNat (v / 4096 % 64 + 128) ::
      UInt8.ofNat (v / 64 % 64 + 128) :: UInt8.ofNat (v % 64 + 128) :: rest) =
        Char.ofNat v :: run {} rest := by
  have hfirst : (UInt8.ofNat (v / 262144 % 8 + 240)).toNat = v / 262144 + 240 := by
    rw [toNat_ofNat_of_lt (by omega)]
    omega
  have hbits : (((v / 262144 + 240 - 240) * 64 + (v / 4096 % 64 + 128) % 64) * 64 +
      (v / 64 % 64 + 128) % 64) * 64 + (v % 64 + 128) % 64 = v := by omega
  rw [run_start (start_four (by rw [hfirst]; omega)), hfirst, run_more ?_ ?_,
    run_more (lower_le_next _) (next_le_upper _), run_last (lower_le_next v) (next_le_upper v),
    toNat_next, toNat_next, toNat_next, hbits]
  · rw [toNat_next]
    split
    · show 144 ≤ _
      omega
    · exact Nat.le_add_left ..
  · rw [toNat_next]
    split
    · show _ ≤ 143
      omega
    · show _ ≤ 191
      omega

/-- The decoder reads the encoding of a character. -/
theorem run_utf8EncodeChar (c : Char) (rest : Bytes) :
    run {} (String.utf8EncodeChar c ++ rest) = c :: run {} rest := by
  obtain ⟨v, hv⟩ : ∃ v, v = c.val.toNat := ⟨_, rfl⟩
  have hc : Char.ofNat v = c := by rw [hv]; exact Char.ofNat_toNat c
  have hvalid : v < 0xD800 ∨ 0xDFFF < v ∧ v < 0x110000 := by rw [hv]; exact c.valid
  rw [String.utf8EncodeChar, ← hv, ← hc]
  split
  · next hone => exact run_one (Nat.lt_succ_of_le hone) rest
  · next hone =>
    split
    · next htwo => exact run_two (Nat.not_le.1 hone) htwo rest
    · next htwo =>
      split
      · next hthree =>
        exact run_three (Nat.not_le.1 htwo) hthree (hvalid.imp_right And.left) rest
      · next hthree => exact run_four (Nat.not_le.1 hthree) (by omega) rest

end LossyDecoder

/-- Nothing is lost of an encoded text. -/
theorem fromUtf8Lossy_utf8 (s : Str) : fromUtf8Lossy (utf8 s) = s := by
  rw [fromUtf8Lossy]
  induction s with
  | nil => rfl
  | cons c s ih =>
    rw [utf8, List.flatMap_cons, LossyDecoder.run_utf8EncodeChar]
    exact congrArg _ ih

end Text
