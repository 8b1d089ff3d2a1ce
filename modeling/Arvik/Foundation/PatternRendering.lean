import Arvik.Foundation.RoutePattern

/-!
# Rendering route patterns

A pattern is rendered with a text for each of its names. The path is captured by the pattern again,
with the same texts, if no segment of the pattern has more than one parameter, and the texts are not
empty and have no slashes of their own (`captures_render`).

The reason is that a pattern with one parameter in a segment has only literal text behind it there.
So the segment of a rendered path is the text of the parameter with that suffix behind it
(`segment_append`, `segment_render`), and taking the suffix away leaves the text that was put in.
Nothing is asked of the suffix: it may occur in the text as well.

A text is rendered as it is. Whoever writes a link escapes it first, and then what is captured is
the escaped text; that it is decoded again is a matter of the decoder, and composing the two is left
to those who have both. A path may of course be captured by other patterns of a router as well, so
this says what one pattern makes of it and not which one is chosen.
-/

namespace RoutePattern

/-- A piece with a text for its name. -/
def Piece.render (texts : Str → Str) : Piece → Str
  | literal c => [c]
  | param name => texts name
  | catchAll name => texts name

/-- The path of a pattern, with a text for each name. -/
def render (texts : Str → Str) (pieces : List Piece) : Str :=
  pieces.flatMap (Piece.render texts)

/-- Each segment has one parameter at most, and a catch-all is last and alone in its segment. The
flag says whether the segment has a parameter already. -/
def delimited : Bool → List Piece → Bool
  | _, [] => true
  | taken, .literal c :: pieces => delimited (taken && c ≠ '/') pieces
  | taken, .param _ :: pieces => !taken && delimited true pieces
  | taken, [.catchAll _] => !taken
  | _, _ => false

example : render (fun name ↦ name ++ "!".toList) (parse "/users/{id}/{*rest}".toList) =
    "/users/id!/rest!".toList ∧ delimited false (parse "/img{id}.png/{tag}".toList) = true ∧
      delimited false (parse "/{a}-{b}".toList) = false := by
  decide

theorem segment_append {s : Str} (hs : '/' ∉ s) (t : Str) : segment (s ++ t) = s ++ segment t :=
  List.takeWhile_append_of_pos fun _ hc ↦ decide_eq_true fun h ↦ hs (h ▸ hc)

/-- Behind a parameter, a rendered segment goes on with the suffix of the pattern. -/
theorem segment_render (texts : Str → Str) {pieces : List Piece} (h : delimited true pieces) :
    segment (render texts pieces) = suffix pieces := by
  induction pieces with
  | nil => rfl
  | cons piece pieces ih =>
    rcases piece with c | name | name
    · have hrender : render texts (.literal c :: pieces) = c :: render texts pieces := rfl
      rw [hrender, segment, List.takeWhile_cons, suffix]
      by_cases hc : c = '/'
      · simp [hc]
      · rw [delimited, decide_eq_true hc, Bool.true_and] at h
        rw [decide_eq_true hc, if_pos rfl, if_neg hc]
        exact congrArg (c :: ·) (ih h)
    · exact absurd h Bool.false_ne_true
    · rcases pieces with - | ⟨piece, pieces⟩
      · exact absurd h Bool.false_ne_true
      · exact absurd h Bool.false_ne_true

/-- What a pattern captures from a path that it renders. -/
theorem captures_render {texts : Str → Str} {taken : Bool} {pieces : List Piece}
    (h : delimited taken pieces)
    (htexts : ∀ name ∈ names pieces, texts name ≠ [] ∧ '/' ∉ texts name) :
    captures pieces (render texts pieces) =
      some ((names pieces).map fun name ↦ (name, texts name)) := by
  induction pieces generalizing taken with
  | nil => rfl
  | cons piece pieces ih =>
    rcases piece with c | name | name
    · exact (if_pos rfl).trans (ih h htexts)
    · obtain ⟨hne, hslash⟩ := htexts name List.mem_cons_self
      rw [delimited, Bool.and_eq_true] at h
      have hrender : render texts (.param name :: pieces) =
          texts name ++ render texts pieces := rfl
      have hvalue : value? (suffix pieces) (texts name ++ render texts pieces) =
          some (texts name) := by
        rw [value?_eq_some_iff, segment_append hslash, segment_render texts h.2]
        exact ⟨rfl, hne⟩
      rw [hrender, captures, hvalue]
      show (captures pieces
        ((texts name ++ render texts pieces).drop (texts name).length)).map _ = _
      rw [List.drop_left, ih h.2 fun name hname ↦ htexts name (List.mem_cons_of_mem _ hname)]
      rfl
    · obtain ⟨hne, -⟩ := htexts name List.mem_cons_self
      rcases pieces with - | ⟨piece, pieces⟩
      · have hrender : render texts [.catchAll name] = texts name := List.append_nil _
        rw [hrender, captures, if_neg hne]
        rfl
      · exact absurd h Bool.false_ne_true

end RoutePattern
