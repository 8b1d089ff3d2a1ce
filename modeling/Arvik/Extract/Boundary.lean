import Arvik.Extract.Multipart
import Arvik.Foundation.MediaType

/-!
# The boundary of a content type

The boundary is found by cutting the content type at each `;` and at the first `=` of each piece.
That is not what MIME means (`mimeBoundary`): the cutting does not stop at a quoted string. A piece
from inside the quotes of some parameter may read as a boundary, a quoted boundary with a `;` comes
apart, and one with a backslash keeps it; and an empty boundary does not count as the first one.

What a parameter contributes is found piece by piece (`cutBoundary_of_not_isBoundary`,
`cutBoundary_of_isBoundary`), and `extractBoundary_eq_mimeBoundary_iff` is the exact condition under
which the content type is read as it is meant.

A content type is not taken apart for this but given by its parts, and every text of the grammar is
the rendering of some. So the theorem starts from what was meant and has only one parser to deal
with, that of the code. A piece is either the beginning of a parameter or a stray from inside a
quoted value, and the search takes the first piece that reads as a boundary; the condition says that
no stray before the boundary does and that the first boundary parameter reads as its value.
-/

open MediaType

/-- The parameter is named boundary. -/
def isBoundary (param : Parameter) : Bool :=
  param.isNamed "boundary".toList

/-- The boundary a content type means. -/
def mimeBoundary (contentType : ContentType) : Except MultipartRejection Str :=
  if contentType.isOf "multipart".toList "form-data".toList then
    ((contentType.param "boundary".toList).filter (· ≠ [])).elim (.error .missingBoundary) .ok
  else
    .error .invalidContentType

/-! ### Reading one piece -/

/-- A piece of text reads as a boundary parameter. -/
def ReadsAs (piece boundary : Str) : Prop :=
  boundary ≠ [] ∧ ∃ name value, piece = name ++ '=' :: value ∧ '=' ∉ name ∧
    Text.eqIgnoreAsciiCase (Text.trim name) "boundary".toList ∧
    (Text.trim value = '"' :: (boundary ++ ['"']) ∨
      Text.trim value = boundary ∧ ¬∃ inner, boundary = '"' :: (inner ++ ['"']))

theorem unquote_eq_iff {s t : Str} :
    unquote s = t ↔ s = '"' :: (t ++ ['"']) ∨ s = t ∧ ¬∃ inner, t = '"' :: (inner ++ ['"']) := by
  -- The quotes come off together or not at all.
  have hquotes : ∀ t, (Text.stripPrefix ['"'] s).bind (Text.stripSuffix ['"']) = some t ↔
      s = '"' :: (t ++ ['"']) := by
    intro t
    rw [Option.bind_eq_some_iff]
    constructor
    · rintro ⟨rest, hrest, ht⟩
      rw [Text.stripPrefix_eq_some_iff] at hrest
      rw [Text.stripSuffix_eq_some_iff] at ht
      rw [hrest, ht, List.singleton_append]
    · intro hs
      exact ⟨t ++ ['"'], Text.stripPrefix_eq_some_iff.2 hs, Text.stripSuffix_eq_some_iff.2 rfl⟩
  rw [unquote]
  cases hstrip : (Text.stripPrefix ['"'] s).bind (Text.stripSuffix ['"']) with
  | some inner =>
    rw [hquotes] at hstrip
    rw [Option.getD_some]
    constructor
    · rintro rfl
      exact Or.inl hstrip
    · rintro (hs | ⟨rfl, hbare⟩)
      · rw [hstrip] at hs
        exact List.append_cancel_right (List.cons_inj_right _ |>.1 hs)
      · exact absurd ⟨inner, hstrip⟩ hbare
  | none =>
    have hbare : ¬∃ inner, s = '"' :: (inner ++ ['"']) := by
      rintro ⟨inner, hs⟩
      rw [(hquotes inner).2 hs] at hstrip
      cases hstrip
    rw [Option.getD_none]
    constructor
    · rintro rfl
      exact Or.inr ⟨rfl, hbare⟩
    · rintro (hs | ⟨rfl, -⟩)
      · exact absurd ⟨t, hs⟩ hbare
      · rfl

/-- The boundary a piece gives is the one it reads as. -/
theorem boundaryParam_eq_some_iff {piece boundary : Str} :
    boundaryParam piece = some boundary ↔ ReadsAs piece boundary := by
  rw [boundaryParam, Option.bind_eq_some_iff]
  constructor
  · rintro ⟨⟨name, value⟩, hsplit, hparam⟩
    obtain ⟨⟨hname, hne⟩, hvalue⟩ := Option.ite_none_right_eq_some.1 hparam
    obtain ⟨hpiece, heq⟩ := Text.splitOnce_eq_some_iff.1 hsplit
    have hvalue := Option.some.inj hvalue
    exact ⟨hvalue ▸ hne, name, value, hpiece, heq, hname, unquote_eq_iff.1 hvalue⟩
  · rintro ⟨hne, name, value, hpiece, heq, hname, hvalue⟩
    rw [← unquote_eq_iff] at hvalue
    refine ⟨(name, value), Text.splitOnce_eq_some_iff.2 ⟨hpiece, heq⟩, ?_⟩
    exact Option.ite_none_right_eq_some.2 ⟨⟨hname, hvalue ▸ hne⟩, congrArg some hvalue⟩

theorem boundaryParam_eq_none_iff {piece : Str} :
    boundaryParam piece = none ↔ ∀ boundary, ¬ReadsAs piece boundary := by
  rw [Option.eq_none_iff_forall_ne_some]
  exact forall_congr' fun boundary ↦ not_congr boundaryParam_eq_some_iff

/-! ### Cutting a text -/

/-- The boundary found in the pieces of a text. -/
def cutBoundary (s : Str) : Option Str :=
  (s.splitOn ';').findSome? boundaryParam

/-- What is found holds no `;`. -/
theorem semicolon_not_mem_of_readsAs {piece boundary : Str} (h : ReadsAs piece boundary)
    (hpiece : ';' ∉ piece) : ';' ∉ boundary := by
  obtain ⟨-, name, value, rfl, -, -, hvalue⟩ := h
  have hsub : Text.trim value ⊆ value :=
    List.Subset.trans (Text.trimEnd_prefix _).subset (List.dropWhile_sublist _).subset
  intro hmem
  refine hpiece (List.mem_append_right _ (List.mem_cons_of_mem _ (hsub ?_)))
  rcases hvalue with hvalue | ⟨hvalue, -⟩
  · rw [hvalue]
    exact List.mem_cons_of_mem _ (List.mem_append_left _ hmem)
  · rw [hvalue]
    exact hmem

theorem semicolon_not_mem_of_cutBoundary {s boundary : Str} (h : cutBoundary s = some boundary) :
    ';' ∉ boundary := by
  obtain ⟨piece, hpiece, hreads⟩ := List.exists_of_findSome?_eq_some h
  exact semicolon_not_mem_of_readsAs (boundaryParam_eq_some_iff.1 hreads)
    (Text.mem_splitOn hpiece).1

theorem boundaryParam_cons_of_isBlank {c : Char} (hc : isBlank c) (s : Str) :
    boundaryParam (c :: s) = boundaryParam s := by
  rw [boundaryParam, boundaryParam, Text.splitOnce, if_neg (ne_of_isBlank hc).2]
  cases Text.splitOnce '=' s with
  | none => rfl
  | some p =>
    obtain ⟨name, value⟩ := p
    rw [Option.map_some, Option.bind_some, Option.bind_some]
    dsimp only
    rw [Text.trim_cons_of_isWhitespace _ (isWhitespace_of_isBlank hc)]

theorem boundaryParam_concat_of_isBlank {c : Char} (hc : isBlank c) (s : Str) :
    boundaryParam (s ++ [c]) = boundaryParam s := by
  rw [boundaryParam, boundaryParam, Text.splitOnce_concat_of_ne (ne_of_isBlank hc).2]
  cases Text.splitOnce '=' s with
  | none => rfl
  | some p =>
    obtain ⟨name, value⟩ := p
    rw [Option.map_some, Option.bind_some, Option.bind_some]
    dsimp only
    rw [Text.trim_concat_of_isWhitespace _ (isWhitespace_of_isBlank hc)]

/-- White space around a text does not matter. -/
theorem cutBoundary_of_isBlank {lead trail : Str} (hlead : ∀ c ∈ lead, isBlank c)
    (htrail : ∀ c ∈ trail, isBlank c) (s : Str) :
    cutBoundary (lead ++ s ++ trail) = cutBoundary s := by
  -- What stands behind the text stays in the last piece, what stands before it in the first.
  have hend : cutBoundary (lead ++ s ++ trail) = cutBoundary (lead ++ s) := by
    induction trail using List.reverseRecOn with
    | nil => rw [List.append_nil]
    | append_singleton trail c ih =>
      have hc : isBlank c := htrail c (List.mem_append_right _ (List.mem_singleton_self c))
      obtain ⟨parts, last, hs, hsc⟩ :=
        Text.splitOn_concat_of_ne (ne_of_isBlank hc).1 (lead ++ s ++ trail)
      rw [← ih fun d hd ↦ htrail d (List.mem_append_left _ hd), ← List.append_assoc, cutBoundary,
        cutBoundary, hs, hsc, List.findSome?_append, List.findSome?_append,
        List.findSome?_singleton, List.findSome?_singleton, boundaryParam_concat_of_isBlank hc]
  rw [hend]
  clear hend
  induction lead with
  | nil => rfl
  | cons c lead ih =>
    have hc : isBlank c := hlead c List.mem_cons_self
    rw [← ih fun d hd ↦ hlead d (List.mem_cons_of_mem c hd), List.cons_append, cutBoundary,
      cutBoundary, List.splitOn_cons_eq_if_modifyHead, if_neg (by simp [(ne_of_isBlank hc).1])]
    cases (lead ++ s).splitOn ';' with
    | nil => rfl
    | cons first parts =>
      rw [List.modifyHead_cons, List.findSome?_cons, List.findSome?_cons,
        boundaryParam_cons_of_isBlank hc]

/-! ### What a parameter contributes -/

section Parameter

variable {param : Parameter}

theorem boundaryParam_name (value : Str) :
    boundaryParam (param.name ++ '=' :: value) =
      if isBoundary param ∧ unquote (Text.trim value) ≠ [] then
        some (unquote (Text.trim value)) else none := by
  have htrim : Text.trim param.name = param.name :=
    Text.trim_eq_self_of_forall fun _ ↦ isWhitespace_of_mem_token param.name_token
  rw [boundaryParam,
    Text.splitOnce_append value (not_mem_of_token param.name_token (by decide)), Option.bind_some]
  dsimp only
  rw [htrim, isBoundary, Parameter.isNamed]

/-- The first piece of a parameter holds its name, the others are the strays of its value. -/
theorem cutBoundary_render (param : Parameter) :
    ∃ first, param.value.render.splitOn ';' = first :: param.value.strays ∧
      cutBoundary param.render = (boundaryParam (param.name ++ '=' :: first)).or
        (param.value.strays.findSome? boundaryParam) := by
  obtain ⟨first, rest, hvalue⟩ :=
    List.exists_cons_of_ne_nil (List.splitOn_ne_nil ';' param.value.render)
  have hstrays : param.value.strays = rest := by rw [Value.strays, hvalue, List.tail_cons]
  have hname : ';' ∉ param.name ++ ['='] := by
    rw [List.mem_append, not_or]
    exact ⟨not_mem_of_token param.name_token (by decide), by decide⟩
  refine ⟨first, by rw [hvalue, hstrays], ?_⟩
  rw [Parameter.render, cutBoundary_of_isBlank (List.all_eq_true.1 param.lead_blank)
      (List.all_eq_true.1 param.trail_blank), cutBoundary,
    List.append_cons, Text.splitOn_append_of_not_mem hname, hvalue, List.modifyHead_cons,
    List.findSome?_cons, hstrays, ← List.append_cons]
  cases boundaryParam (param.name ++ '=' :: first) <;> rfl

/-- A parameter of another name contributes what its strays read as. -/
theorem cutBoundary_of_not_isBoundary (h : ¬isBoundary param) :
    cutBoundary param.render = param.value.strays.findSome? boundaryParam := by
  obtain ⟨first, -, hcut⟩ := cutBoundary_render param
  rw [hcut, boundaryParam_name, if_neg fun hboth ↦ h hboth.1, Option.none_or]

theorem unquote_trim_render (value : Value) : unquote (Text.trim value.render) = value.raw := by
  rw [unquote_eq_iff]
  cases value with
  | token s h =>
    refine Or.inr ⟨Text.trim_eq_self_of_forall fun _ ↦ isWhitespace_of_mem_token h, ?_⟩
    rintro ⟨inner, hs⟩
    have hquote : '"' ∈ s := by
      show '"' ∈ (Value.token s h).raw
      rw [hs]
      exact List.mem_cons_self
    exact not_mem_of_token h (by decide) hquote
  | quoted body =>
    refine Or.inl (Text.trim_eq_self (fun c hc ↦ ?_) fun c hc ↦ ?_)
    · rw [← Option.some.inj hc]
      decide
    · have hlast : (Value.quoted body).render = '"' :: (Value.quoted body).raw ++ ['"'] := rfl
      rw [hlast, List.getLast?_concat] at hc
      rw [← Option.some.inj hc]
      decide

/-- A boundary without a `;` is read as it is written. -/
theorem cutBoundary_of_isBoundary (h : isBoundary param) (hraw : ';' ∉ param.value.raw) :
    cutBoundary param.render = if param.value.raw ≠ [] then some param.value.raw else none := by
  obtain ⟨first, hsplit, hcut⟩ := cutBoundary_render param
  rw [List.splitOn_eq_singleton ((Value.mem_render_iff (by decide)).not.2 hraw)] at hsplit
  obtain ⟨hfirst, hstrays⟩ := List.cons.inj hsplit
  rw [hcut, ← hfirst, ← hstrays, boundaryParam_name, unquote_trim_render, List.findSome?_nil,
    Option.or_none]
  simp only [h, true_and]

/-- A boundary that comes apart is still read as something. -/
theorem cutBoundary_ne_none_of_mem (h : isBoundary param) (hraw : ';' ∈ param.value.raw) :
    cutBoundary param.render ≠ none := by
  obtain ⟨first, hsplit, hcut⟩ := cutBoundary_render param
  cases hvalue : param.value with
  | token s htoken =>
    rw [hvalue] at hraw
    exact absurd hraw (not_mem_of_token htoken (by decide))
  | quoted body =>
    rw [hvalue] at hsplit hraw
    obtain ⟨start, rest, hbody, hstart⟩ := List.eq_append_cons_of_mem hraw
    -- The first piece has the opening quote, and no quote right behind it.
    have hrender : (Value.quoted body).render = ('"' :: start) ++ ';' :: (rest ++ ['"']) := by
      show '"' :: ((Value.quoted body).raw ++ ['"']) = _
      rw [hbody, List.append_assoc]
      rfl
    have hquoted : ';' ∉ '"' :: start := List.not_mem_cons_of_ne_of_not_mem (by decide) hstart
    rw [hrender, List.splitOn_append_cons_self_of_not_mem hquoted] at hsplit
    have hhead : start.head? ≠ some '"' := by
      intro hquote
      refine Value.head?_raw_ne body ?_
      show (Value.quoted body).raw.head? = some '"'
      rw [hbody, List.head?_append, hquote]
      rfl
    have hreads : unquote (Text.trim first) ≠ [] := by
      intro hnil
      rw [← (List.cons.inj hsplit).1, Text.trim_cons_of_not_isWhitespace _ (by decide),
        unquote_eq_iff] at hnil
      rcases hnil with hnil | ⟨hnil, -⟩
      · obtain ⟨more, hmore⟩ := Text.trimEnd_prefix start
        rw [(List.cons.inj hnil).2] at hmore
        exact hhead (by rw [← hmore]; rfl)
      · exact List.cons_ne_nil _ _ hnil
    rw [hcut, boundaryParam_name, if_pos ⟨h, hreads⟩, Option.some_or]
    exact Option.some_ne_none _

/-- Only an empty boundary is not read as any. -/
theorem cutBoundary_eq_none_iff (h : isBoundary param) :
    cutBoundary param.render = none ↔ param.value.text = [] := by
  rw [Value.text_eq_nil_iff]
  by_cases hraw : ';' ∈ param.value.raw
  · exact iff_of_false (cutBoundary_ne_none_of_mem h hraw) (List.ne_nil_of_mem hraw)
  · rw [cutBoundary_of_isBoundary h hraw]
    split
    · next hne => exact iff_of_false (Option.some_ne_none _) hne
    · next hnil => exact iff_of_true rfl (not_not.1 hnil)

/-- A boundary is read as it is meant exactly if it has neither a `;` nor a backslash. -/
theorem cutBoundary_eq_text_iff (h : isBoundary param) (htext : param.value.text ≠ []) :
    cutBoundary param.render = some param.value.text ↔
      ';' ∉ param.value.raw ∧ '\\' ∉ param.value.raw := by
  by_cases hraw : ';' ∈ param.value.raw
  · refine iff_of_false (fun hcut ↦ ?_) fun hplain ↦ hplain.1 hraw
    exact semicolon_not_mem_of_cutBoundary hcut (Value.mem_text hraw (by decide))
  · rw [cutBoundary_of_isBoundary h hraw, if_pos (param.value.text_eq_nil_iff.not.1 htext),
      Option.some_inj, Value.raw_eq_text_iff]
    exact (and_iff_right hraw).symm

end Parameter

/-! ### The whole content type -/

/-- The pieces that begin inside the values of parameters. -/
def strays (params : List Parameter) : List Str :=
  params.flatMap (·.value.strays)

/-- No piece reads as a boundary. -/
def Quiet (pieces : List Str) : Prop :=
  ∀ piece ∈ pieces, ∀ boundary, ¬ReadsAs piece boundary

/-- The first of the pieces that reads as a boundary reads as this one. -/
def FirstReadsAs (pieces : List Str) (boundary : Str) : Prop :=
  ∃ before piece after, pieces = before ++ piece :: after ∧ ReadsAs piece boundary ∧ Quiet before

/-- The parameters are read as they are meant: either no boundary is meant, and then every
parameter named boundary is empty and no stray reads as one; or the first parameter named boundary
is not empty, and then the strays before it agree with it, or none of them reads as a boundary and
it has neither a `;` nor a backslash. -/
def ReadsAsMeant (params : List Parameter) : Prop :=
  ((∀ param ∈ params, isBoundary param → param.value.text = []) ∧ Quiet (strays params)) ∨
    ∃ before param after, params = before ++ param :: after ∧
      (∀ earlier ∈ before, ¬isBoundary earlier) ∧ isBoundary param ∧ param.value.text ≠ [] ∧
      (FirstReadsAs (strays before) param.value.text ∨
        Quiet (strays before) ∧ ';' ∉ param.value.raw ∧ '\\' ∉ param.value.raw)

theorem findSome?_boundaryParam_eq_none_iff {pieces : List Str} :
    pieces.findSome? boundaryParam = none ↔ Quiet pieces := by
  rw [List.findSome?_eq_none_iff]
  exact forall₂_congr fun piece _ ↦ boundaryParam_eq_none_iff

theorem findSome?_boundaryParam_eq_some_iff {pieces : List Str} {boundary : Str} :
    pieces.findSome? boundaryParam = some boundary ↔ FirstReadsAs pieces boundary := by
  rw [List.findSome?_eq_some_iff]
  refine exists_congr fun before ↦ exists_congr fun piece ↦ exists_congr fun after ↦ ?_
  refine and_congr_right fun _ ↦ and_congr boundaryParam_eq_some_iff ?_
  exact forall₂_congr fun earlier _ ↦ boundaryParam_eq_none_iff

/-- Reading the pieces of all parameters is reading one parameter after the other. -/
theorem findSome?_flatMap_render (params : List Parameter) :
    (params.flatMap fun param ↦ param.render.splitOn ';').findSome? boundaryParam =
      params.findSome? fun param ↦ cutBoundary param.render := by
  induction params with
  | nil => rfl
  | cons param params ih =>
    rw [List.flatMap_cons, List.findSome?_append, List.findSome?_cons, ih, cutBoundary]
    cases (param.render.splitOn ';').findSome? boundaryParam <;> rfl

/-- Without a boundary parameter it is the strays that are read. -/
theorem findSome?_cutBoundary_of_not_isBoundary {params : List Parameter}
    (h : ∀ param ∈ params, ¬isBoundary param) :
    (params.findSome? fun param ↦ cutBoundary param.render) =
      (strays params).findSome? boundaryParam := by
  induction params with
  | nil => rfl
  | cons param params ih =>
    rw [strays, List.flatMap_cons, List.findSome?_append, List.findSome?_cons,
      cutBoundary_of_not_isBoundary (h param List.mem_cons_self),
      ih fun other hother ↦ h other (List.mem_cons_of_mem _ hother), strays]
    cases param.value.strays.findSome? boundaryParam <;> rfl

/-- The boundary is read off the parameters. -/
theorem extractBoundary_render (contentType : ContentType) :
    extractBoundary contentType.render =
      if contentType.isOf "multipart".toList "form-data".toList then
        (contentType.params.findSome? fun param ↦ cutBoundary param.render).elim
          (.error .missingBoundary) .ok
      else .error .invalidContentType := by
  have hslash : '/' ∉ "multipart".toList := by decide
  have hessence : Text.eqIgnoreAsciiCase contentType.essence "multipart/form-data".toList =
      contentType.isOf "multipart".toList "form-data".toList :=
    contentType.eqIgnoreAsciiCase_essence hslash "form-data".toList
  rw [extractBoundary, contentType.splitOn_render, List.headD_cons, List.tail_cons,
    contentType.trim_essence_append_trail, hessence, findSome?_flatMap_render]
  cases contentType.isOf "multipart".toList "form-data".toList with
  | false => rfl
  | true => cases contentType.params.findSome? fun param ↦ cutBoundary param.render <;> rfl

/-- Nothing is read exactly if every parameter named boundary is empty and no stray reads as
one. -/
theorem findSome?_cutBoundary_eq_none_iff (params : List Parameter) :
    (params.findSome? fun param ↦ cutBoundary param.render) = none ↔
      (∀ param ∈ params, isBoundary param → param.value.text = []) ∧ Quiet (strays params) := by
  have hparam : ∀ param : Parameter, cutBoundary param.render = none ↔
      (isBoundary param → param.value.text = []) ∧ Quiet param.value.strays := by
    intro param
    by_cases h : isBoundary param
    · rw [cutBoundary_eq_none_iff h, imp_iff_right h]
      refine (and_iff_left_of_imp fun htext ↦ ?_).symm
      have hraw : ';' ∉ param.value.raw := by
        rw [param.value.text_eq_nil_iff.1 htext]
        exact List.not_mem_nil
      rw [Value.strays_eq_nil hraw]
      exact fun _ hmem ↦ absurd hmem List.not_mem_nil
    · rw [cutBoundary_of_not_isBoundary h, findSome?_boundaryParam_eq_none_iff]
      exact (and_iff_right fun hb ↦ absurd hb h).symm
  rw [List.findSome?_eq_none_iff, Quiet, strays, List.forall_mem_flatMap, ← forall₂_and]
  exact forall₂_congr fun param _ ↦ hparam param

/-- Up to the first boundary that is not empty, the strays come first. -/
theorem findSome?_cutBoundary_append {before after : List Parameter} {param : Parameter}
    (hbefore : ∀ earlier ∈ before, ¬isBoundary earlier) (h : isBoundary param)
    (htext : param.value.text ≠ []) :
    ((before ++ param :: after).findSome? fun param ↦ cutBoundary param.render) =
      ((strays before).findSome? boundaryParam).or (cutBoundary param.render) := by
  obtain ⟨boundary, hcut⟩ :=
    Option.ne_none_iff_exists'.1 ((cutBoundary_eq_none_iff h).not.2 htext)
  rw [List.findSome?_append, List.findSome?_cons, hcut,
    findSome?_cutBoundary_of_not_isBoundary hbefore]

/-- The boundary that is read is the one that is meant. -/
theorem findSome?_cutBoundary_eq_iff (params : List Parameter) :
    (params.findSome? fun param ↦ cutBoundary param.render) =
        ((params.find? isBoundary).map (·.value.text)).filter (· ≠ []) ↔
      ReadsAsMeant params := by
  constructor
  · intro hread
    cases hfind : params.find? isBoundary with
    | none =>
      rw [hfind] at hread
      exact Or.inl ((findSome?_cutBoundary_eq_none_iff params).1 hread)
    | some param =>
      obtain ⟨h, before, after, rfl, hbefore⟩ := List.find?_eq_some_iff_append.1 hfind
      replace hbefore : ∀ earlier ∈ before, ¬isBoundary earlier := by simpa using hbefore
      rw [hfind, Option.map_some, Option.filter_some] at hread
      -- An empty first boundary is passed over, so nothing else may be read.
      by_cases htext : param.value.text = []
      · rw [if_neg (by simp [htext])] at hread
        exact Or.inl ((findSome?_cutBoundary_eq_none_iff _).1 hread)
      · rw [if_pos (by simp [htext]), findSome?_cutBoundary_append hbefore h htext] at hread
        refine Or.inr ⟨before, param, after, rfl, hbefore, h, htext, ?_⟩
        rcases Option.or_eq_some_iff.1 hread with hstray | ⟨hquiet, hcut⟩
        · exact Or.inl (findSome?_boundaryParam_eq_some_iff.1 hstray)
        · exact Or.inr ⟨findSome?_boundaryParam_eq_none_iff.1 hquiet,
            (cutBoundary_eq_text_iff h htext).1 hcut⟩
  · rintro (⟨hempty, hquiet⟩ | ⟨before, param, after, rfl, hbefore, h, htext, hread⟩)
    · rw [(findSome?_cutBoundary_eq_none_iff params).2 ⟨hempty, hquiet⟩]
      cases hfind : params.find? isBoundary with
      | none => rfl
      | some param =>
        have htext := hempty param (List.mem_of_find?_eq_some hfind) (List.find?_some hfind)
        rw [Option.map_some, Option.filter_some, if_neg (by simp [htext])]
    · have hfind : (before ++ param :: after).find? isBoundary = some param :=
        List.find?_eq_some_iff_append.2 ⟨h, before, after, rfl, by simpa using hbefore⟩
      rw [findSome?_cutBoundary_append hbefore h htext, hfind, Option.map_some, Option.filter_some,
        if_pos (by simp [htext]), Option.or_eq_some_iff, cutBoundary_eq_text_iff h htext,
        findSome?_boundaryParam_eq_some_iff, findSome?_boundaryParam_eq_none_iff]
      exact hread

/-- **The boundary MIME means**. A content type is read as it is meant exactly if it is not
`multipart/form-data`, or the strays of quoted values and the boundary parameters allow it. -/
theorem extractBoundary_eq_mimeBoundary_iff (contentType : ContentType) :
    extractBoundary contentType.render = mimeBoundary contentType ↔
      (contentType.isOf "multipart".toList "form-data".toList →
        ReadsAsMeant contentType.params) := by
  rw [extractBoundary_render, mimeBoundary]
  by_cases hform : contentType.isOf "multipart".toList "form-data".toList
  · have hinjective : Function.Injective fun boundary : Option Str ↦
        boundary.elim (.error MultipartRejection.missingBoundary) Except.ok := by
      rintro (_ | a) (_ | b) heq
      · rfl
      · cases heq
      · cases heq
      · exact congrArg some (Except.ok.inj heq)
    rw [if_pos hform, if_pos hform, imp_iff_right hform, hinjective.eq_iff]
    exact findSome?_cutBoundary_eq_iff contentType.params
  · rw [if_neg hform, if_neg hform]
    exact iff_of_true rfl fun h ↦ absurd h hform

/-- A parameter before the boundary whose quotes hold what looks like a boundary. -/
def strayed : ContentType where
  type := "multipart".toList
  subtype := "form-data".toList
  params :=
    [{ name := "x".toList, value := .quote "a;boundary=evil".toList },
      { name := "boundary".toList, value := .token "real".toList (by decide) }]

/-- The stray wins, with the closing quote that is left of its string. -/
theorem extractBoundary_ne_mimeBoundary_strayed :
    strayed.render = "multipart/form-data; x=\"a;boundary=evil\"; boundary=real".toList ∧
      extractBoundary strayed.render = .ok "evil\"".toList ∧
      extractBoundary strayed.render ≠ mimeBoundary strayed := by
  decide +kernel
