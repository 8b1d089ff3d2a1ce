import Arvik.Foundation.Text

/-!
# Dotted paths

A position in a tree of named fields and indexed items, written the usual way: names joined by dots,
indices in brackets (`a.b[3].c`). The text tells the position (`render_injective_of_clear`) as long
as no name is empty or holds a delimiter.

The proof reads the text from the left. Every step behind the first starts with a delimiter
(`head?_suffixes`), so a name that holds none ends where the next delimiter stands
(`name_append_inj`), and an index ends at its bracket, which is no digit (`index_append_inj`). Both
conditions on names are needed: an empty name in front makes a name and the position below it look
alike, and a dot in a name makes one step look like two.
-/

namespace DottedPath

/-- A step from a node to one below it. -/
inductive Step
  | name (s : Str)
  | index (i : ℕ)
  deriving DecidableEq

/-- The steps from the root to a node. -/
abbrev Position := List Step

/-- A step as it is written behind another one. -/
def Step.suffix : Step → Str
  | name s => '.' :: s
  | index i => '[' :: Nat.toDigits 10 i ++ [']']

/-- Steps as they are written behind another one. -/
def suffixes (pos : Position) : Str :=
  pos.flatMap Step.suffix

/-- The text of a position: there is no dot before the first name. -/
def render : Position → Str
  | .name s :: rest => s ++ suffixes rest
  | pos => suffixes pos

/-- A name that can be told from what is written around it. -/
def Step.Clear : Step → Prop
  | name s => s ≠ [] ∧ '.' ∉ s ∧ '[' ∉ s
  | index _ => True

/-! ### A text tells its position -/

/-- A suffix starts with a delimiter. -/
theorem head?_suffixes {pos : Position} {c : Char} (h : (suffixes pos).head? = some c) :
    c = '.' ∨ c = '[' := by
  rcases pos with - | ⟨_ | _, pos⟩
  · cases h
  · exact .inl (Option.some.inj h).symm
  · exact .inr (Option.some.inj h).symm

/-- A name without delimiters ends where the next delimiter stands. -/
theorem name_append_inj {s t : Str} {p q : Position} (hs : '.' ∉ s ∧ '[' ∉ s)
    (ht : '.' ∉ t ∧ '[' ∉ t) (h : s ++ suffixes p = t ++ suffixes q) :
    s = t ∧ suffixes p = suffixes q := by
  have hdelim : ∀ {a x y : Str} {r : Position}, suffixes r = a ++ y → a ≠ [] →
      ¬ ('.' ∉ x ++ a ∧ '[' ∉ x ++ a) := by
    rintro a x y r hr hne ⟨hdot, hbracket⟩
    obtain ⟨c, a, rfl⟩ := List.exists_cons_of_ne_nil hne
    rcases head?_suffixes (hr ▸ rfl : (suffixes r).head? = some c) with rfl | rfl
    · exact hdot (List.mem_append_right _ List.mem_cons_self)
    · exact hbracket (List.mem_append_right _ List.mem_cons_self)
  rcases List.append_eq_append_iff.1 h with ⟨a, rfl, hp⟩ | ⟨a, rfl, hq⟩
  · rcases eq_or_ne a [] with rfl | hne
    · exact ⟨(List.append_nil s).symm, hp⟩
    · exact absurd ht (hdelim hp hne)
  · rcases eq_or_ne a [] with rfl | hne
    · exact ⟨List.append_nil t, hq.symm⟩
    · exact absurd hs (hdelim hq hne)

theorem bracket_not_mem_toDigits (i : ℕ) : ']' ∉ Nat.toDigits 10 i := fun h ↦
  absurd (Nat.isDigit_of_mem_toDigits (by decide) (by decide) h) (by decide)

/-- An index ends at its bracket. -/
theorem index_append_inj {i j : ℕ} {s t : Str}
    (h : Nat.toDigits 10 i ++ ']' :: s = Nat.toDigits 10 j ++ ']' :: t) : i = j ∧ s = t := by
  have hsplit := congrArg (Text.splitOnce ']') h
  rw [Text.splitOnce_append _ (bracket_not_mem_toDigits i),
    Text.splitOnce_append _ (bracket_not_mem_toDigits j)] at hsplit
  obtain ⟨hdigits, hrest⟩ := Prod.mk.inj (Option.some.inj hsplit)
  refine ⟨?_, hrest⟩
  rw [← Nat.ofDigitChars_ten_toDigits (n := i), hdigits, Nat.ofDigitChars_ten_toDigits]

theorem suffixes_injective_of_clear {p q : Position} (hp : ∀ s ∈ p, s.Clear)
    (hq : ∀ s ∈ q, s.Clear) (h : suffixes p = suffixes q) : p = q := by
  induction p generalizing q with
  | nil =>
    rcases q with - | ⟨_ | _, q⟩
    · rfl
    · cases h
    · cases h
  | cons step p ih =>
    obtain ⟨hstep, hrest⟩ := List.forall_mem_cons.1 hp
    rcases q with - | ⟨step', q⟩
    · rcases step with s | i
      · cases h
      · cases h
    · obtain ⟨hstep', hrest'⟩ := List.forall_mem_cons.1 hq
      rcases step with s | i
      · rcases step' with t | j
        · obtain ⟨rfl, hsuffixes⟩ := name_append_inj hstep.2 hstep'.2 (List.cons.inj h).2
          rw [ih hrest hrest' hsuffixes]
        · cases (List.cons.inj h).1
      · rcases step' with t | j
        · cases (List.cons.inj h).1
        · have hdigits := (List.cons.inj h).2
          simp only [List.append_eq, List.append_assoc, List.singleton_append] at hdigits
          obtain ⟨rfl, hsuffixes⟩ := index_append_inj hdigits
          rw [ih hrest hrest' hsuffixes]

/-- A name that is clear is not taken for an index. -/
theorem name_append_ne_suffixes {s : Str} (hs : (Step.name s).Clear) (rest : Position)
    {pos : Position} (hpos : ∀ t p, pos ≠ .name t :: p) : s ++ suffixes rest ≠ suffixes pos := by
  intro h
  obtain ⟨c, s, rfl⟩ := List.exists_cons_of_ne_nil hs.1
  rcases pos with - | ⟨t | i, pos⟩
  · cases h
  · exact hpos t pos rfl
  · obtain rfl := (List.cons.inj h).1
    exact hs.2.2 List.mem_cons_self

/-- **A text tells its position**, if its names are clear. Reading from the front, a name ends at
the first dot or bracket, and an index at its closing bracket. -/
theorem render_injective_of_clear {p q : Position} (hp : ∀ s ∈ p, s.Clear)
    (hq : ∀ s ∈ q, s.Clear) (h : render p = render q) : p = q := by
  have hcases : ∀ pos : Position,
      (∃ s rest, pos = .name s :: rest) ∨ ∀ s rest, pos ≠ .name s :: rest := fun pos ↦ by
    rcases pos with - | ⟨s | i, rest⟩
    · exact .inr fun s rest ↦ by simp
    · exact .inl ⟨s, rest, rfl⟩
    · exact .inr fun s rest ↦ by simp
  rcases hcases p with ⟨s, p, rfl⟩ | hother
  · rcases hcases q with ⟨t, q, rfl⟩ | hother'
    · obtain ⟨hs, hrest⟩ := List.forall_mem_cons.1 hp
      obtain ⟨ht, hrest'⟩ := List.forall_mem_cons.1 hq
      obtain ⟨rfl, hsuffixes⟩ := name_append_inj hs.2 ht.2 h
      rw [suffixes_injective_of_clear hrest hrest' hsuffixes]
    · rw [render.eq_2 q hother'] at h
      exact absurd h (name_append_ne_suffixes (hp _ List.mem_cons_self) p hother')
  · rw [render.eq_2 p hother] at h
    rcases hcases q with ⟨t, q, rfl⟩ | hother'
    · exact absurd h.symm (name_append_ne_suffixes (hq _ List.mem_cons_self) q hother)
    · rw [render.eq_2 q hother'] at h
      exact suffixes_injective_of_clear hp hq h

/-- Dots between names, brackets around indices. -/
example : render [.name ['a'], .name ['b'], .index 13, .name ['c']] = "a.b[13].c".toList := by
  decide

end DottedPath
