import Arvik.Foundation.Text

/-!
# Route patterns

A route pattern is a path in which `{name}` stands for one segment, or for what a segment has in
front of a literal suffix, and a final `{*name}` for everything that is left; a doubled brace is a
brace. What a pattern captures from a path is a list of named values, in the order of the pattern,
none of them empty.

## A parameter ends where its suffix begins

A segment holds one parameter at most, so what the pattern has behind a parameter, up to the next
slash, is literal text (`suffix`). The value of the parameter is the segment of the path without
that text (`value?`). So `captures` never searches: the value is determined by the segment, and the
recursion goes on behind it, at the suffix, which is matched off again as the literal text it is.

A pattern without braces matches itself and nothing else (`captures_literals`), and a literal
prefix is matched off first (`captures_literals_append`). The names captured are those of the
pattern (`map_fst_of_captures`).

## Patterns that overlap

Several patterns may match one path. Where two of them part, a text comes before a parameter and a
parameter before a catch-all: the pattern that has it `precedes` the other. This compares the
patterns only. Whether a path is led away from a pattern before it gets to the end of it depends on
the path as well: of two parameters at one place the longer suffix that fits is taken (`diverts`).
Patterns of one `shape` differ in nothing but their names. A pattern without parameters is never
led away from (`not_diverts_of_forall`), and one without braces precedes every other pattern that
matches the same path (`precedes_of_literals`).
-/

namespace RoutePattern

/-- A piece of a pattern. -/
inductive Piece
  | literal (c : Char)
  /-- One segment, or what is left of it, up to a suffix. -/
  | param (name : Str)
  /-- Everything that is left. -/
  | catchAll (name : Str)
  deriving DecidableEq, Repr

/-- The piece written between braces. -/
def Piece.braced : Str → Piece
  | '*' :: name => catchAll name
  | name => param name

/-- The name of a piece that captures. -/
def Piece.name? : Piece → Option Str
  | literal _ => none
  | param name => some name
  | catchAll name => some name

/-- The pieces of a pattern; inside braces, the name read so far is kept. A doubled brace is a
brace there too. -/
def parseFrom : Option Str → Str → List Piece
  | none, '{' :: '{' :: s => .literal '{' :: parseFrom none s
  | none, '}' :: '}' :: s => .literal '}' :: parseFrom none s
  | none, '{' :: s => parseFrom (some []) s
  | none, c :: s => .literal c :: parseFrom none s
  | some name, '{' :: '{' :: s => parseFrom (some (name ++ ['{'])) s
  | some name, '}' :: '}' :: s => parseFrom (some (name ++ ['}'])) s
  | some name, '}' :: s => .braced name :: parseFrom none s
  | some name, c :: s => parseFrom (some (name ++ [c])) s
  | _, [] => []

/-- The pieces of a pattern. -/
def parse (pattern : Str) : List Piece :=
  parseFrom none pattern

/-- The names of a pattern, in order. -/
def names (pieces : List Piece) : List Str :=
  pieces.filterMap Piece.name?

/-! ### Captures -/

/-- The text up to the next slash. -/
def segment (s : Str) : Str :=
  s.takeWhile (· ≠ '/')

/-- The text that a pattern has up to the end of the segment. -/
def suffix : List Piece → Str
  | .literal c :: pieces => if c = '/' then [] else c :: suffix pieces
  | _ => []

/-- The value of a parameter: the segment without the suffix. -/
def value? (suffix s : Str) : Option Str :=
  ((segment s).dropSuffix? suffix).filter (· ≠ [])

/-- What the pieces capture from a path, if they match all of it. -/
def captures : List Piece → Str → Option (List (Str × Str))
  | [], [] => some []
  | .literal c :: pieces, d :: s => if c = d then captures pieces s else none
  | .param name :: pieces, s =>
    match value? (suffix pieces) s with
    | some value => (captures pieces (s.drop value.length)).map ((name, value) :: ·)
    | none => none
  | [.catchAll name], s => if s = [] then none else some [(name, s)]
  | _, _ => none

example : captures (parse "/users/{id}/{*rest}".toList) "/users/7/a/b".toList =
    some [("id".toList, "7".toList), ("rest".toList, "a/b".toList)] := by
  decide

example : captures (parse "/images/img{id}.png/{tag}".toList) "/images/img7.png/nature".toList =
    some [("id".toList, "7".toList), ("tag".toList, "nature".toList)] := by
  decide

/-- A value is what a segment has in front of the suffix, and not empty. -/
theorem value?_eq_some_iff {suffix s value : Str} :
    value? suffix s = some value ↔ segment s = value ++ suffix ∧ value ≠ [] := by
  rw [value?, Option.filter_eq_some_iff, List.dropSuffix?_eq_some_iff, decide_eq_true_eq]
  refine and_congr_left fun _ ↦ ⟨?_, fun h ↦ ⟨suffix, h, beq_self_eq_true suffix⟩⟩
  rintro ⟨suffix', h, heq⟩
  rw [h, eq_of_beq heq]

@[simp]
theorem value?_nil (suffix : Str) : value? suffix [] = none := by
  refine Option.eq_none_iff_forall_ne_some.2 fun value hvalue ↦ ?_
  obtain ⟨hsegment, hne⟩ := value?_eq_some_iff.1 hvalue
  exact hne (List.append_eq_nil_iff.1 hsegment.symm).1

/-- A text without braces. -/
def IsLiteral (s : Str) : Prop :=
  '{' ∉ s ∧ '}' ∉ s

instance (s : Str) : Decidable (IsLiteral s) :=
  inferInstanceAs (Decidable (_ ∧ _))

theorem isLiteral_cons {c : Char} {s : Str} :
    IsLiteral (c :: s) ↔ (c ≠ '{' ∧ c ≠ '}') ∧ IsLiteral s := by
  simp only [IsLiteral, List.mem_cons, not_or, ne_comm (a := c)]
  exact and_and_and_comm

theorem isLiteral_append {s t : Str} : IsLiteral (s ++ t) ↔ IsLiteral s ∧ IsLiteral t := by
  simp only [IsLiteral, List.mem_append, not_or]
  exact and_and_and_comm

/-- A text without braces stands for itself. -/
theorem parse_literal_append {s : Str} (h : IsLiteral s) (t : Str) :
    parse (s ++ t) = s.map .literal ++ parse t := by
  induction s with
  | nil => rfl
  | cons c s ih =>
    obtain ⟨⟨hopen, hclose⟩, hs⟩ := isLiteral_cons.1 h
    have hstep : parseFrom none (c :: (s ++ t)) = .literal c :: parseFrom none (s ++ t) := by
      rw [parseFrom]
      · exact fun _ hc ↦ absurd hc hopen
      · exact fun _ hc ↦ absurd hc hclose
      · exact hopen
    exact hstep.trans (congrArg (Piece.literal c :: ·) (ih hs))

theorem parse_literal {s : Str} (h : IsLiteral s) : parse s = s.map .literal := by
  have hparse := parse_literal_append h []
  rwa [List.append_nil, show parse [] = [] from rfl, List.append_nil] at hparse

/-- A literal prefix is matched off. -/
theorem captures_literals_append (s : Str) (pieces : List Piece) (t : Str) :
    captures (s.map .literal ++ pieces) (s ++ t) = captures pieces t := by
  induction s with
  | nil => rfl
  | cons c s ih => exact (if_pos rfl).trans ih

/-- A pattern without braces matches itself only, and captures nothing. -/
theorem captures_literals (s path : Str) :
    captures (s.map .literal) path = if path = s then some [] else none := by
  induction s generalizing path with
  | nil =>
    rcases path with - | ⟨d, path⟩
    · rfl
    · exact (if_neg (by simp)).symm
  | cons c s ih =>
    rcases path with - | ⟨d, path⟩
    · exact (if_neg (by simp)).symm
    · rw [List.map_cons, captures, ih]
      by_cases hcd : c = d
      · simp [hcd]
      · rw [if_neg hcd, if_neg fun h ↦ hcd (List.cons.inj h).1.symm]

/-- The names captured are the names of the pattern. -/
theorem map_fst_of_captures {pieces : List Piece} {path : Str} {caps : List (Str × Str)}
    (h : captures pieces path = some caps) : caps.map Prod.fst = names pieces := by
  induction pieces, path using captures.induct generalizing caps with
  | case1 =>
    obtain rfl := Option.some.inj h
    rfl
  | case2 pieces d s ih =>
    rw [captures, if_pos rfl] at h
    exact ih h
  | case3 c pieces d s hcd =>
    rw [captures, if_neg hcd] at h
    exact absurd h (by simp)
  | case4 name pieces s value hvalue ih =>
    rw [captures, hvalue] at h
    obtain ⟨rest, hrest, rfl⟩ := Option.map_eq_some_iff.1 h
    exact congrArg (name :: ·) (ih hrest)
  | case5 name pieces s hvalue =>
    rw [captures, hvalue] at h
    exact nomatch h
  | case6 name =>
    exact absurd h (by simp [captures])
  | case7 name s hs =>
    rw [captures, if_neg hs] at h
    obtain rfl := Option.some.inj h
    rfl
  | case8 pieces s h1 h2 h3 h4 =>
    rw [captures] at h
    · exact absurd h (by simp)
    all_goals assumption

/-! ### Overlapping patterns -/

/-- A piece with its name left out. -/
def Piece.anonymous : Piece → Piece
  | literal c => literal c
  | param _ => param []
  | catchAll _ => catchAll []

/-- A pattern with its names left out. -/
def shape (pattern : Str) : List Piece :=
  (parse pattern).map Piece.anonymous

/-- Whether a pattern comes before another: where they part, it has a text and the other one a
parameter or a catch-all, or it has a parameter and the other one a catch-all. -/
def precedes : List Piece → List Piece → Bool
  | .literal c :: pieces, .literal d :: others => c = d && precedes pieces others
  | .param _ :: pieces, .param _ :: others => precedes pieces others
  | .literal _ :: _, .param _ :: _ => true
  | .literal _ :: _, .catchAll _ :: _ => true
  | .param _ :: _, .catchAll _ :: _ => true
  | _, _ => false

/-- Whether a path is led away from a pattern by another: both have a parameter at the same place,
and the other one has a longer suffix that fits. -/
def diverts : List Piece → List Piece → Str → Bool
  | .literal c :: pieces, .literal d :: others, _ :: s => c = d && diverts pieces others s
  | .param _ :: pieces, .param _ :: others, s =>
    if suffix pieces = suffix others then
      (value? (suffix pieces) s).any fun value ↦ diverts pieces others (s.drop value.length)
    else (suffix pieces).length < (suffix others).length && (value? (suffix others) s).isSome
  | _, _, _ => false

/-- No path is led away from a pattern without parameters. -/
theorem not_diverts_of_forall {pieces : List Piece} (h : ∀ name, .param name ∉ pieces)
    (others : List Piece) (s : Str) : diverts pieces others s = false := by
  induction pieces generalizing others s with
  | nil => rfl
  | cons piece pieces ih =>
    have ih' := ih fun name hmem ↦ h name (List.mem_cons_of_mem _ hmem)
    rcases piece with c | name | name
    · rcases others with - | ⟨d | name | name, others⟩
      · rfl
      · rcases s with - | ⟨e, s⟩
        · rfl
        · rw [diverts, ih' others s, Bool.and_false]
      · rfl
      · rfl
    · exact absurd List.mem_cons_self (h name)
    · rcases others with - | ⟨- | - | -, others⟩ <;> rfl

/-- A pattern without braces comes before every other one that matches it. -/
theorem precedes_of_literals {s : Str} {others : List Piece}
    (h : (captures others s).isSome) (hne : others ≠ s.map .literal) :
    precedes (s.map .literal) others := by
  induction s generalizing others with
  | nil =>
    rcases others with - | ⟨c | name | name, others⟩
    · exact absurd rfl hne
    · exact absurd h Bool.false_ne_true
    · exact absurd h (by simp [captures])
    · rcases others with - | ⟨piece, others⟩
      · exact absurd h Bool.false_ne_true
      · exact absurd h Bool.false_ne_true
  | cons c s ih =>
    rcases others with - | ⟨d | name | name, others⟩
    · exact absurd h Bool.false_ne_true
    · rw [captures] at h
      split_ifs at h with hdc
      · subst hdc
        rw [List.map_cons, precedes, ih h fun heq ↦ hne (congrArg _ heq), Bool.and_true,
          decide_eq_true_eq]
      · exact absurd h Bool.false_ne_true
    · rfl
    · rfl

end RoutePattern
