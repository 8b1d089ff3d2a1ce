import Mathlib.Data.List.Lex
import Mathlib.Data.List.MinMax
import Arvik.Foundation.RoutePattern

/-!
# The route matcher

The matcher is a library: patterns are inserted into a trie, each with a value, and a path is
looked up in it. Only its operations are supplied to the router (`MatchitLib`). What they do is in
a class of its own (`LawfulMatchit`), so that what holds of the router for any matcher whatsoever
does not rest on the laws of this one.

## What the laws say

The router only ever inserts patterns under their number, so the laws are about tries built that
way (`Numbered`). What a lookup answers is one of the patterns with what it captures. A pattern is
refused if one of the same shape is there already; what else is refused (a malformed pattern, a
catch-all beside a parameter) is left open. And a path that a pattern matches is found, unless a
longer suffix leads it away: by that pattern, or by one that it does not precede.

The last law is one about search. The matcher goes through a pattern from left to right, tries a
text before a parameter, and goes back to the parameter if the text leads nowhere. It is not said
to go back to a shorter suffix, so the law is silent where one pattern `diverts` a path from
another.

`MatchitLib.list` is one implementation: it keeps a list and answers with a pattern that no other
one that matches precedes.
-/

/-- The tries into which patterns were inserted one after the other, each under its number. -/
inductive Numbered {Trie : Type} (new : Trie) (insert : Trie → Str → ℕ → Option Trie) :
    Trie → List Str → Prop
  | new : Numbered new insert new []
  | insert {trie trie' : Trie} {patterns : List Str} {pattern : Str} :
    Numbered new insert trie patterns → insert trie pattern patterns.length = some trie' →
    Numbered new insert trie' (patterns ++ [pattern])

/-- The operations of the matching library. -/
class MatchitLib where
  Trie : Type
  new : Trie
  /-- Insert a pattern with a value; a conflict with the patterns inserted is an error. -/
  insert : Trie → Str → ℕ → Option Trie
  /-- The value of the pattern that matches a path, with the parameters captured, in order. -/
  matchAt : Trie → Str → Option (ℕ × List (Str × Str))

/-- Insert patterns one after the other, each under its number. -/
def MatchitLib.insertAll [MatchitLib] (patterns : List Str) : Option MatchitLib.Trie :=
  patterns.zipIdx.foldlM (fun trie p ↦ MatchitLib.insert trie p.1 p.2) MatchitLib.new

theorem MatchitLib.insertAll_concat [MatchitLib] (patterns : List Str) (pattern : Str) :
    MatchitLib.insertAll (patterns ++ [pattern]) = (MatchitLib.insertAll patterns).bind fun trie ↦
      MatchitLib.insert trie pattern patterns.length := by
  rw [insertAll, List.zipIdx_append, List.foldlM_append, Nat.zero_add]
  exact bind_congr fun trie ↦ bind_pure _

/-- The numbered tries are those into which patterns were inserted in order. -/
theorem MatchitLib.insertAll_eq_some_iff [MatchitLib] {trie : MatchitLib.Trie}
    {patterns : List Str} : MatchitLib.insertAll patterns = some trie ↔
      Numbered MatchitLib.new MatchitLib.insert trie patterns := by
  constructor
  · intro h
    induction patterns using List.reverseRecOn generalizing trie with
    | nil =>
      obtain rfl := Option.some.inj h
      exact .new
    | append_singleton patterns pattern ih =>
      rw [insertAll_concat] at h
      obtain ⟨before, hbefore, hinsert⟩ := Option.bind_eq_some_iff.1 h
      exact .insert (ih hbefore) hinsert
  · intro h
    induction h with
    | new => rfl
    | insert _ hinsert ih => rw [insertAll_concat, ih, Option.bind_some, hinsert]

open RoutePattern in
/-- What the library is documented to do. -/
class LawfulMatchit [MatchitLib] : Prop where
  /-- What is found is one of the patterns, with what it captures. -/
  exists_of_matchAt : ∀ {trie patterns path i params},
    Numbered MatchitLib.new MatchitLib.insert trie patterns →
    MatchitLib.matchAt trie path = some (i, params) →
    ∃ pattern, patterns[i]? = some pattern ∧ captures (parse pattern) path = some params
  /-- If a pattern matches that no other leads the path away from, it is found, or a pattern that
  it does not precede. -/
  exists_matchAt : ∀ {trie patterns path pattern},
    Numbered MatchitLib.new MatchitLib.insert trie patterns → pattern ∈ patterns →
    (captures (parse pattern) path).isSome →
    (∀ other ∈ patterns, diverts (parse pattern) (parse other) path = false) →
    ∃ i params other, MatchitLib.matchAt trie path = some (i, params) ∧
      patterns[i]? = some other ∧ precedes (parse pattern) (parse other) = false
  /-- Two patterns that differ in names only conflict. -/
  insert_eq_none : ∀ {trie patterns pattern other},
    Numbered MatchitLib.new MatchitLib.insert trie patterns → other ∈ patterns →
    shape other = shape pattern → MatchitLib.insert trie pattern patterns.length = none

namespace MatchitLib

open RoutePattern

/-- The patterns of a trie differ in more than their names. -/
theorem pairwise_shape_ne [MatchitLib] [LawfulMatchit] {trie : Trie} {patterns : List Str}
    (h : Numbered new insert trie patterns) :
    patterns.Pairwise fun pattern other ↦ shape pattern ≠ shape other := by
  induction h with
  | new => exact .nil
  | insert hnum hinsert ih =>
    refine List.pairwise_append.2 ⟨ih, List.pairwise_singleton _ _,
      fun other hother pattern hmem ↦ ?_⟩
    rw [List.mem_singleton.1 hmem]
    intro hshape
    exact nomatch (LawfulMatchit.insert_eq_none hnum hother hshape).symm.trans hinsert

/-! ### A matcher that keeps a list -/

/-- Insert into a list of patterns, unless a pattern of the same shape is in it. -/
def listInsert (trie : List (Str × ℕ)) (pattern : Str) (i : ℕ) : Option (List (Str × ℕ)) :=
  if trie.any fun entry ↦ shape entry.1 == shape pattern then none
  else some (trie ++ [(pattern, i)])

/-- The place of a piece among those that may stand in its place. -/
def rank : Piece → ℕ
  | .literal _ => 0
  | .param _ => 1
  | .catchAll _ => 2

/-- A pattern of a list that matches, and that no other one that matches precedes. -/
def listMatchAt (trie : List (Str × ℕ)) (path : Str) : Option (ℕ × List (Str × Str)) :=
  let found := trie.filterMap fun entry ↦
    (captures (parse entry.1) path).map fun params ↦ (entry, params)
  (found.argmin fun found ↦ (parse found.1.1).map rank).map fun found ↦ (found.1.2, found.2)

theorem eq_zipIdx_of_numbered {trie : List (Str × ℕ)} {patterns : List Str}
    (h : Numbered [] listInsert trie patterns) : trie = patterns.zipIdx := by
  induction h with
  | new => rfl
  | insert _ hinsert ih =>
    rw [listInsert] at hinsert
    split at hinsert
    · exact nomatch hinsert
    · rw [← Option.some.inj hinsert, ih, List.zipIdx_append]
      simp

/-- A pattern that precedes another has the smaller ranks. -/
theorem map_rank_lt_of_precedes {pieces others : List Piece} (h : precedes pieces others) :
    pieces.map rank < others.map rank := by
  induction pieces, others using precedes.induct with
  | case1 c pieces d others ih =>
    rw [precedes, Bool.and_eq_true] at h
    exact List.cons_lt_cons_iff.2 (.inr ⟨rfl, ih h.2⟩)
  | case2 name pieces name' others ih => exact List.cons_lt_cons_iff.2 (.inr ⟨rfl, ih h⟩)
  | case3 => exact List.cons_lt_cons_iff.2 (.inl Nat.zero_lt_one)
  | case4 => exact List.cons_lt_cons_iff.2 (.inl Nat.zero_lt_two)
  | case5 => exact List.cons_lt_cons_iff.2 (.inl Nat.one_lt_two)
  | case6 pieces others h1 h2 h3 h4 h5 =>
    rw [precedes] at h
    · exact absurd h Bool.false_ne_true
    all_goals assumption

/-- The matcher that keeps a list of patterns. -/
abbrev list : MatchitLib where
  Trie := List (Str × ℕ)
  new := []
  insert := listInsert
  matchAt := listMatchAt

/-- What a list answers is an entry that matches, and none that matches precedes it. -/
theorem listMatchAt_eq_some {trie : List (Str × ℕ)} {path : Str} {i : ℕ}
    {params : List (Str × Str)} (h : listMatchAt trie path = some (i, params)) :
    ∃ pattern, (pattern, i) ∈ trie ∧ captures (parse pattern) path = some params ∧
      ∀ entry ∈ trie, (captures (parse entry.1) path).isSome →
        precedes (parse entry.1) (parse pattern) = false := by
  obtain ⟨⟨⟨pattern, j⟩, params'⟩, hmin, heq⟩ := Option.map_eq_some_iff.1 h
  obtain ⟨rfl, rfl⟩ := Prod.mk.inj heq
  obtain ⟨entry, hentry, hcaps⟩ := List.mem_filterMap.1 (List.argmin_mem hmin)
  obtain ⟨params, hparams, heq⟩ := Option.map_eq_some_iff.1 hcaps
  obtain ⟨rfl, rfl⟩ := Prod.mk.inj heq
  refine ⟨pattern, hentry, hparams, fun entry hmem hsome ↦ ?_⟩
  obtain ⟨caps, hcaps⟩ := Option.isSome_iff_exists.1 hsome
  by_contra hprecedes
  refine List.not_lt_of_mem_argmin (a := (entry, caps)) (List.mem_filterMap.2 ⟨entry, hmem, ?_⟩)
    hmin (map_rank_lt_of_precedes (Bool.of_not_eq_false hprecedes))
  rw [hcaps]
  rfl

/-- A path that an entry matches is found. -/
theorem isSome_listMatchAt {trie : List (Str × ℕ)} {path : Str} {entry : Str × ℕ}
    (hmem : entry ∈ trie) (h : (captures (parse entry.1) path).isSome) :
    (listMatchAt trie path).isSome := by
  obtain ⟨caps, hcaps⟩ := Option.isSome_iff_exists.1 h
  rw [listMatchAt, Option.isSome_map, ← Option.ne_none_iff_isSome, Ne, List.argmin_eq_none]
  refine List.ne_nil_of_mem (a := (entry, caps)) (List.mem_filterMap.2 ⟨entry, hmem, ?_⟩)
  rw [hcaps]
  rfl

attribute [local instance] list

instance lawfulList : LawfulMatchit where
  exists_of_matchAt hnum hat := by
    rw [eq_zipIdx_of_numbered hnum] at hat
    obtain ⟨pattern, hmem, hcaps, -⟩ := listMatchAt_eq_some hat
    exact ⟨pattern, List.mem_zipIdx_iff_getElem?.1 hmem, hcaps⟩
  exists_matchAt {trie patterns path pattern} hnum hmem hsome _ := by
    obtain ⟨k, hk⟩ := List.mem_iff_getElem?.1 hmem
    have hentry : (pattern, k) ∈ patterns.zipIdx := List.mem_zipIdx_iff_getElem?.2 hk
    rw [eq_zipIdx_of_numbered hnum]
    obtain ⟨⟨i, params⟩, hat⟩ := Option.isSome_iff_exists.1 (isSome_listMatchAt hentry hsome)
    obtain ⟨other, hother, -, hfirst⟩ := listMatchAt_eq_some hat
    exact ⟨i, params, other, hat, List.mem_zipIdx_iff_getElem?.1 hother,
      hfirst (pattern, k) hentry hsome⟩
  insert_eq_none {trie patterns pattern other} hnum hmem hshape := by
    obtain ⟨k, hk⟩ := List.mem_iff_getElem?.1 hmem
    have hsame : (shape other == shape pattern) = true := beq_iff_eq.2 hshape
    rw [eq_zipIdx_of_numbered hnum]
    exact if_pos (List.any_eq_true.2 ⟨(other, k), List.mem_zipIdx_iff_getElem?.2 hk, hsame⟩)

end MatchitLib
