import Arvik.Foundation.Html
import Arvik.Static.Agreement
import Arvik.Static.Segments
import Mathlib.Data.List.TakeWhile

/-!
# Links of directory listings

A listing is read as a page with one anchor for each entry, whatever the names of the entries are
(`tokens_listingPage`): no name leaves the attribute or the text it is written into. But the name is
also read as a URI reference, and is not escaped for that. So a link leads to its entry exactly if
the name has no character with a meaning in a reference (`leads_iff`), and the listing of a
directory exactly if this is so for all its entries (`listsEntries_iff`).

A name goes through three readers one after the other, and the module has a part for each. The
tokenizer of HTML gives the attribute back as it was before escaping. The reference in it is parsed
and resolved against the page, which is where a colon, a question mark or a hash makes it another
one. The path it leads to is cut by the service, segment by segment, which is where a percent sign
does.

A name with none of these passes all three. For the converse each of the characters is shown to lead
elsewhere: to another scheme, to a path with fewer segments, or to a component that is not the name.
-/

namespace Static

/-! ### Reading the page -/

/-- The characters that end a tag, an attribute or a text. -/
def delimiters : Str :=
  ['<', '>', '"', '\'']

theorem not_mem_escapeHtml (s : Str) {c : Char} (hc : c ∈ delimiters) : c ∉ escapeHtml s := by
  have hreference : ∀ name : Str, (name.all fun d ↦ d ∉ delimiters) → c ∉ name := by
    intro name hname hmem
    exact of_decide_eq_true (List.all_eq_true.1 hname c hmem) hc
  intro h
  obtain ⟨d, -, hd⟩ := List.mem_flatMap.1 h
  unfold escapeHtmlChar at hd
  split at hd
  · exact hreference _ (by decide) hd
  · exact hreference _ (by decide) hd
  · exact hreference _ (by decide) hd
  · exact hreference _ (by decide) hd
  · exact hreference _ (by decide) hd
  · next hlt hgt hquot hapos =>
    obtain rfl := List.mem_singleton.1 hd
    simp only [delimiters, List.mem_cons, List.not_mem_nil, or_false] at hc
    rcases hc with hc | hc | hc | hc
    · exact hlt hc
    · exact hgt hc
    · exact hquot hc
    · exact hapos hc

/-- Replacing the references undoes the escaping. -/
theorem unescape_escapeHtml (s : Str) : Html.unescape (escapeHtml s) = s := by
  have hchar : ∀ c rest, Html.unescapeFrom none (escapeHtmlChar c ++ rest) =
      c :: Html.unescapeFrom none rest := by
    intro c rest
    unfold escapeHtmlChar
    split
    · rfl
    · rfl
    · rfl
    · rfl
    · rfl
    · next hamp _ _ _ _ => exact Html.unescapeFrom_cons_of_ne hamp rest
  induction s with
  | nil => rfl
  | cons c s ih =>
    rw [escapeHtml, List.flatMap_cons, Html.unescape, hchar]
    exact congrArg (c :: ·) ih

/-- What is read of the item of an entry: an anchor with the entry as its text and as its target. -/
def itemTokens (entry : Str) : List Html.Token :=
  [.startTag "li".toList [], .startTag "a".toList [("href".toList, entry)]] ++
    (if entry = [] then [] else [.text entry]) ++ [.endTag "a".toList, .endTag "li".toList]

/-- What is read of a listing. -/
def listingTokens (requestPath : Str) (entries : List Str) : List Html.Token :=
  [.declaration "doctype html".toList,
    .startTag "meta".toList [("charset".toList, "utf-8".toList)],
    .startTag "title".toList [], .text ("Index of ".toList ++ requestPath),
    .endTag "title".toList,
    .startTag "h1".toList [], .text ("Index of ".toList ++ requestPath), .endTag "h1".toList,
    .startTag "ul".toList []] ++ entries.flatMap itemTokens ++ [.endTag "ul".toList]

theorem escapeHtml_eq_nil_iff {s : Str} : escapeHtml s = [] ↔ s = [] := by
  constructor
  · intro h
    have hs := unescape_escapeHtml s
    rw [h] at hs
    exact hs.symm
  · rintro rfl
    rfl

theorem textTokens_escapeHtml (s : Str) :
    Html.textTokens (escapeHtml s) = if s = [] then [] else [.text s] := by
  simp only [Html.textTokens, unescape_escapeHtml, escapeHtml_eq_nil_iff]

open Html in
theorem run_listingItem (entry rest : Str) :
    run (.data []) (listingItem entry ++ rest) = itemTokens entry ++ run (.data []) rest := by
  have hquote : '"' ∉ escapeHtml entry := not_mem_escapeHtml entry (by decide)
  have hbracket : '<' ∉ escapeHtml entry := not_mem_escapeHtml entry (by decide)
  have hopen : ∀ s, run (.data []) ("<li><a href=\"".toList ++ s) =
      [.startTag "li".toList []] ++
        run (.value { name := "a".toList } "href".toList '"' []) s := by
    intro s
    rfl
  have hclose : ∀ text s, run (.value { name := "a".toList } "href".toList '"' text)
      ("\">".toList ++ s) =
        [.startTag "a".toList [("href".toList, unescape text)]] ++ run (.data []) s := by
    intro text s
    rfl
  have hend : ∀ text s, run (.data text) ("</a></li>".toList ++ s) =
      textTokens text ++ ([.endTag "a".toList, .endTag "li".toList] ++ run (.data []) s) := by
    intro text s
    rfl
  -- Reassociated over variables, since rewriting next to the literals would evaluate them.
  have hassoc : ∀ a b c d e : Str, a ++ b ++ c ++ d ++ e ++ rest =
      a ++ (b ++ (c ++ (d ++ (e ++ rest)))) := by
    intro a b c d e
    simp only [List.append_assoc]
  have hitem : listingItem entry ++ rest = _ :=
    hassoc "<li><a href=\"".toList (escapeHtml entry) "\">".toList (escapeHtml entry)
      "</a></li>".toList
  have htokens : ∀ li anchor text close : List Token,
      li ++ (anchor ++ (text ++ (close ++ run (.data []) rest))) =
        li ++ anchor ++ text ++ close ++ run (.data []) rest := by
    intro li anchor text close
    simp only [List.append_assoc]
  rw [hitem]
  refine (hopen _).trans (Eq.trans (congrArg _ ?_) (htokens _ _ _ _))
  refine (run_value _ hquote _ _ _).trans ((hclose _ _).trans ?_)
  rw [List.nil_append, unescape_escapeHtml]
  refine congrArg _ ((run_data _ hbracket _).trans ((hend _ _).trans ?_))
  rw [List.nil_append, textTokens_escapeHtml]

open Html in
theorem run_flatMap_listingItem (entries : List Str) (rest : Str) :
    run (.data []) (entries.flatMap listingItem ++ rest) =
      entries.flatMap itemTokens ++ run (.data []) rest := by
  induction entries with
  | nil => rfl
  | cons entry entries ih =>
    rw [List.flatMap_cons, List.append_assoc, run_listingItem, ih, List.flatMap_cons,
      List.append_assoc]

open Html in
/-- The title and the heading of a page. -/
theorem textTokens_index (requestPath : Str) :
    textTokens ("Index of ".toList ++ escapeHtml requestPath) =
      [.text ("Index of ".toList ++ requestPath)] := by
  have hne : "Index of ".toList ++ escapeHtml requestPath ≠ [] := List.cons_ne_nil _ _
  have hunescape : unescape ("Index of ".toList ++ escapeHtml requestPath) =
    "Index of ".toList ++ unescape (escapeHtml requestPath) := rfl
  rw [textTokens, if_neg hne, hunescape, unescape_escapeHtml]

open Html in
/-- **The page is read as it was meant**, whatever is in the path and in the entries. -/
theorem tokens_listingPage (requestPath : Str) (entries : List Str) :
    tokens (listingPage requestPath entries) = listingTokens requestPath entries := by
  have hbracket : '<' ∉ escapeHtml requestPath := not_mem_escapeHtml requestPath (by decide)
  -- Each literal part of the page takes the machine from text to text.
  have hopen : ∀ s, run (.data [])
      ("<!doctype html><meta charset=\"utf-8\"><title>Index of ".toList ++ s) =
        [.declaration "doctype html".toList,
          .startTag "meta".toList [("charset".toList, "utf-8".toList)],
          .startTag "title".toList []] ++ run (.data "Index of ".toList) s := by
    intro s
    rfl
  have hheading : ∀ text s, run (.data text) ("</title><h1>Index of ".toList ++ s) =
      textTokens text ++ ([.endTag "title".toList, .startTag "h1".toList []] ++
        run (.data "Index of ".toList) s) := by
    intro text s
    rfl
  have hlist : ∀ text s, run (.data text) ("</h1><ul>".toList ++ s) =
      textTokens text ++ ([.endTag "h1".toList, .startTag "ul".toList []] ++
        run (.data []) s) := by
    intro text s
    rfl
  have hend : run (.data []) "</ul>".toList = [.endTag "ul".toList] := by
    rfl
  have hassoc : ∀ a b c d e f g : Str, a ++ b ++ c ++ d ++ e ++ f ++ g =
      a ++ (b ++ (c ++ (d ++ (e ++ (f ++ g))))) := by
    intro a b c d e f g
    simp only [List.append_assoc]
  have hpage : listingPage requestPath entries = _ :=
    hassoc "<!doctype html><meta charset=\"utf-8\"><title>Index of ".toList
      (escapeHtml requestPath) "</title><h1>Index of ".toList (escapeHtml requestPath)
      "</h1><ul>".toList (entries.flatMap listingItem) "</ul>".toList
  have htokens : listingTokens requestPath entries =
      [.declaration "doctype html".toList,
        .startTag "meta".toList [("charset".toList, "utf-8".toList)],
        .startTag "title".toList []] ++ ([.text ("Index of ".toList ++ requestPath)] ++
      ([.endTag "title".toList, .startTag "h1".toList []] ++
        ([.text ("Index of ".toList ++ requestPath)] ++
      ([.endTag "h1".toList, .startTag "ul".toList []] ++
        (entries.flatMap itemTokens ++ [.endTag "ul".toList]))))) := by
    rfl
  rw [tokens, hpage, htokens]
  refine (hopen _).trans (congrArg _ ?_)
  refine (run_data _ hbracket _).trans ((hheading _ _).trans ?_)
  rw [textTokens_index]
  refine congrArg _ (congrArg _ ?_)
  refine (run_data _ hbracket _).trans ((hlist _ _).trans ?_)
  rw [textTokens_index]
  refine congrArg _ (congrArg _ ?_)
  rw [run_flatMap_listingItem, hend]

/-! ### The pages of listings -/

open UriReference

/-- The URL of a listing, which ends in a slash, and the directory its path stands for. -/
structure ListingPage where
  url : UriReference
  directory : RelativePath
  authority : url.authority.isSome
  rooted : url.path.head? = some '/'
  slash : url.path.getLast? = some '/'
  path : relativePath url.path = some directory

/-- A name without characters that have a meaning in a reference: no escape, query or fragment
begins in it, and no scheme ends in it. -/
structure IsPlain (name : Str) : Prop where
  percent : '%' ∉ name
  query : '?' ∉ name
  fragment : '#' ∉ name
  scheme : ':' ∈ name → name.head? = some ':'

/-- The label of an entry in a listing. -/
def listingLabel (name : Str) (isDir : Bool) : Str :=
  name ++ if isDir then ['/'] else []

/-- A name is cut where a query or a fragment would begin in it. -/
theorem exists_cut (name : Str) : ∃ before behind, name = before ++ behind ∧
    (∀ c ∈ before, c ∉ ['?', '#']) ∧ ∀ c ∈ behind.head?, c ∈ ['?', '#'] := by
  let keep (c : Char) : Bool := decide (c ∉ ['?', '#'])
  refine ⟨name.takeWhile keep, name.dropWhile keep, List.takeWhile_append_dropWhile.symm,
    fun c hc ↦ ?_, fun c hc ↦ ?_⟩
  · have hkeep : keep c = true := List.mem_takeWhile_imp hc
    exact of_decide_eq_true hkeep
  · have hnot := List.head?_dropWhile_not keep name
    rw [hc] at hnot
    exact not_not.1 (of_decide_eq_false hnot)

section Label

variable {name : Str} (isDir : Bool)

theorem head?_listingLabel_ne (h : IsProper name) :
    (listingLabel name isDir).head? ≠ some '/' := by
  obtain ⟨c, rest, hrest⟩ := List.exists_cons_of_ne_nil h.ne_nil
  have hslash := h.slash
  rw [hrest] at hslash
  rw [listingLabel, hrest]
  exact fun h ↦ hslash (Option.some.inj h ▸ List.mem_cons_self)

theorem descends_listingLabel : Descends (listingLabel name isDir) ↔ Descends name := by
  rcases isDir with - | -
  · rw [listingLabel, if_neg Bool.false_ne_true, List.append_nil]
  · exact (descends_append_slash name []).trans (and_iff_left descends_nil)

theorem segmentComponents_listingLabel (h : Descends name) :
    segmentComponents (listingLabel name isDir) = segmentComponents name := by
  rcases isDir with - | -
  · rw [listingLabel, if_neg Bool.false_ne_true, List.append_nil]
  · have hcut := segmentComponents_append_slash h descends_nil
    rwa [segmentComponents_nil, List.append_nil] at hcut

theorem percent_not_mem_listingLabel (h : '%' ∉ name) : '%' ∉ listingLabel name isDir := by
  rw [listingLabel, List.mem_append]
  refine not_or.2 ⟨h, ?_⟩
  split
  · decide
  · decide

/-- A label is read as a path up to a question mark or a hash, if no scheme ends before. -/
theorem parse_listingLabel {before behind : Str} (hname : IsProper (before ++ behind))
    (hbefore : ∀ c ∈ before, c ∉ ['?', '#']) (hbehind : ∀ c ∈ behind.head?, c ∈ ['?', '#'])
    (hscheme : ':' ∈ before → before.head? = some ':') :
    (parse (listingLabel (before ++ behind) isDir)).scheme = none ∧
      (parse (listingLabel (before ++ behind) isDir)).authority = none ∧
      (parse (listingLabel (before ++ behind) isDir)).path =
        if behind = [] then listingLabel before isDir else before := by
  have hhead := head?_listingLabel_ne isDir hname
  obtain ⟨end_, hend, hlabel⟩ : ∃ end_, end_ ∈ [[], ['/']] ∧
      ∀ name, listingLabel name isDir = name ++ end_ := by
    rcases isDir with - | -
    · exact ⟨[], by simp, fun _ ↦ rfl⟩
    · exact ⟨['/'], by simp, fun _ ↦ rfl⟩
  have hcut : cutScheme (before ++ (behind ++ end_)) = (none, before ++ (behind ++ end_)) := by
    by_cases hcolon : ':' ∈ before
    · obtain ⟨rest, rfl⟩ := List.head?_eq_some_iff.1 (hscheme hcolon)
      exact cutScheme_colon _
    · refine cutScheme_of_not_mem hcolon fun c hc ↦ ?_
      rcases behind with - | ⟨d, behind⟩
      · rcases List.mem_pair.1 hend with rfl | rfl
        · cases hc
        · obtain rfl := Option.some.inj hc
          decide
      · obtain rfl := Option.some.inj hc
        exact List.mem_cons_of_mem _ (hbehind d rfl)
  rw [hlabel, List.append_assoc] at hhead
  rw [hlabel, hlabel, List.append_assoc]
  split
  · next hnil =>
    have hpath : ∀ c ∈ before ++ end_, c ∉ ['?', '#'] := by
      rw [List.forall_mem_append]
      refine ⟨hbefore, ?_⟩
      rcases List.mem_pair.1 hend with rfl | rfl
      · exact List.forall_mem_nil _
      · rw [List.forall_mem_singleton]
        decide
    rw [hnil, List.nil_append] at hcut hhead ⊢
    rw [← List.append_nil (before ++ end_)] at hcut hhead
    have hparse := parse_of_relative hcut hhead hpath nofun
    rwa [List.append_nil] at hparse
  · next hne =>
    refine parse_of_relative hcut hhead hbefore fun c hc ↦ hbehind c ?_
    rwa [List.head?_append_of_ne_nil _ hne] at hc

end Label

namespace ListingPage

variable (self : ListingPage)

/-- A link leads to the entry with a name: to the host of the page, and to a path that stands for
the entry. -/
def Leads (name href : Str) : Prop :=
  (self.url.resolve (.parse href)).origin = self.url.origin ∧
    ∃ target, relativePath (self.url.resolve (.parse href)).path = some target ∧
      target.parts = self.directory.parts ++ [name]

/-- Without its dots, the path of the page does not start with an encoded slash. -/
def KeepsFront : Prop :=
  ¬ StartsEncoded (removeDotSegments self.url.path)

/-- The segments of the path of the page. -/
theorem exists_segments : ∃ segments, (∀ segment ∈ segments, '/' ∉ segment) ∧
    self.url.path = slashed segments ++ ['/'] ∧ (∀ segment ∈ segments, Descends segment) ∧
      self.directory.parts = segments.flatMap segmentComponents := by
  obtain ⟨segments, hslash, hpath⟩ : ∃ segments, (∀ segment ∈ segments, '/' ∉ segment) ∧
      self.url.path = slashed segments ++ ['/'] := by
    obtain ⟨front, hfront⟩ := List.getLast?_eq_some_iff.1 self.slash
    rcases front with - | ⟨c, rest⟩
    · exact ⟨[], fun segment h ↦ absurd h List.not_mem_nil, hfront⟩
    · have hc := self.rooted
      rw [hfront, List.cons_append, List.head?_cons, Option.some.injEq] at hc
      refine ⟨rest.splitOn '/', fun segment h ↦ (Text.mem_splitOn h).1, ?_⟩
      rw [slashed_splitOn, hfront, hc]
  have hrelative := self.path
  rw [hpath, relativePath_slashed, segmentComponents_nil, List.append_nil] at hrelative
  exact ⟨segments, hslash, hpath, hrelative.1.1, hrelative.2.2⟩

/-- Where a reference leads that is no more than a path. -/
theorem leads_iff_of_relative {name href : Str} (hscheme : (parse href).scheme = none)
    (hauthority : (parse href).authority = none) (hne : (parse href).path ≠ [])
    (hhead : (parse href).path.head? ≠ some '/') :
    self.Leads name href ↔
      ∃ target, relativePath (removeDotSegments (self.url.path ++ (parse href).path)) =
          some target ∧ target.parts = self.directory.parts ++ [name] := by
  obtain ⟨horigin, hpath⟩ := resolve_of_relative hscheme hauthority hne hhead self.slash
  rw [Leads, hpath]
  exact and_iff_right horigin

/-- Where a last segment leads: below the directory by its own components, or, if it is dots, to a
place that is no deeper than the directory. -/
theorem exists_removeDotSegments {last : Str} (hlast : '/' ∉ last) :
    ∃ kept end_, removeDotSegments (self.url.path ++ last) = slashed kept ++ '/' :: end_ ∧
      (kept.flatMap segmentComponents).length ≤ self.directory.parts.length ∧
      (end_ = [] ∨ end_ = last ∧ kept.flatMap segmentComponents = self.directory.parts) := by
  obtain ⟨segments, hsegments, hpath, hdescends, hparts⟩ := self.exists_segments
  have hup : ['.', '.'] ∉ segments := fun h ↦ not_descends_up (hdescends _ h)
  have hkept := (segmentComponents_flatMap_filter segments).trans hparts.symm
  rw [hpath, List.append_assoc, List.singleton_append,
    removeDotSegments_slashed hsegments hup hlast]
  by_cases hhere : last = ['.']
  · exact ⟨_, [], by rw [hhere]; rfl, (congrArg List.length hkept).le, .inl rfl⟩
  · by_cases htwo : last = ['.', '.']
    · rw [htwo]
      rcases List.eq_nil_or_concat' (segments.filter fun segment ↦ segment ≠ ['.']) with
        hnil | ⟨before, segment, hconcat⟩
      · exact ⟨[], [], by rw [hnil]; rfl, Nat.zero_le _, .inl rfl⟩
      · have hsegment : segment ∈ segments :=
          List.mem_of_mem_filter (hconcat ▸ List.mem_append_right before List.mem_cons_self)
        rw [hconcat] at hkept ⊢
        refine ⟨before, [], ?_, ?_, .inl rfl⟩
        · exact congrArg (· ++ ['/'])
            (dropSegment_slashed_concat before (hsegments _ hsegment))
        · rw [← hkept, List.flatMap_append, List.length_append]
          exact Nat.le_add_right _ _
    · exact ⟨_, last, addSegments_singleton hhere htwo _, (congrArg List.length hkept).le,
        .inr ⟨rfl, hkept⟩⟩

/-- A reference whose path is shorter than a name does not lead to the entry with that name. -/
theorem not_leads_of_length_lt {name href : Str} (hscheme : (parse href).scheme = none)
    (hauthority : (parse href).authority = none) (hslash : '/' ∉ (parse href).path)
    (hlength : (Text.utf8 (parse href).path).length < (Text.utf8 name).length) :
    ¬ self.Leads name href := by
  by_cases hnil : (parse href).path = []
  · -- The reference stands for the page.
    rintro ⟨-, target, htarget, hparts⟩
    rw [resolve, hscheme, hauthority, Option.isSome_none, if_neg Bool.false_ne_true,
      if_neg Bool.false_ne_true, if_pos hnil, self.path] at htarget
    rw [← Option.some.inj htarget] at hparts
    simpa using congrArg List.length hparts
  · have hhead : (parse href).path.head? ≠ some '/' := fun h ↦
      hslash (List.mem_of_mem_head? h)
    obtain ⟨kept, end_, hremove, hle, hend⟩ := self.exists_removeDotSegments hslash
    rw [self.leads_iff_of_relative hscheme hauthority hnil hhead, hremove]
    rintro ⟨target, htarget, hparts⟩
    rw [relativePath_slashed, hparts] at htarget
    obtain rfl | ⟨rfl, hkept⟩ := hend
    · rw [segmentComponents_nil, List.append_nil] at htarget
      rw [← htarget.2.2, List.length_append] at hle
      exact absurd hle (by simp)
    · rw [hkept] at htarget
      have hmem : name ∈ segmentComponents (parse href).path :=
        List.append_cancel_left htarget.2.2 ▸ List.mem_singleton_self name
      have hle := length_utf8_le_of_mem_segmentComponents hmem
      have hdecode := Percent.length_decode_le (Text.utf8 (parse href).path)
      omega

variable {name : Str} (isDir : Bool)

/-- The label of an entry leads below the directory. -/
theorem exists_removeDotSegments_label (hname : IsProper name) :
    ∃ kept, removeDotSegments (self.url.path ++ listingLabel name isDir) =
        slashed kept ++ '/' :: listingLabel name isDir ∧
      removeDotSegments self.url.path = slashed kept ++ ['/'] ∧
      (∀ segment ∈ kept, Descends segment) ∧
      kept.flatMap segmentComponents = self.directory.parts := by
  obtain ⟨segments, hsegments, hpath, hdescends, hparts⟩ := self.exists_segments
  have hup : ['.', '.'] ∉ segments := fun h ↦ not_descends_up (hdescends _ h)
  have hkept := (segmentComponents_flatMap_filter segments).trans hparts.symm
  refine ⟨_, ?_, ?_, fun segment h ↦ hdescends _ (List.mem_of_mem_filter h), hkept⟩
  · rw [hpath, List.append_assoc, List.singleton_append, listingLabel]
    rcases isDir with - | -
    · rw [if_neg Bool.false_ne_true, List.append_nil]
      exact removeDotSegments_slashed_of_ne hsegments hup hname.slash hname.ne_here hname.ne_up
    · -- The name is a segment of its own, before an empty one.
      have hall : ∀ segment ∈ segments ++ [name], '/' ∉ segment := by
        rw [List.forall_mem_append, List.forall_mem_singleton]
        exact ⟨hsegments, hname.slash⟩
      have hnot : ['.', '.'] ∉ segments ++ [name] := by
        rw [List.mem_append, List.mem_singleton]
        exact not_or.2 ⟨hup, hname.ne_up.symm⟩
      have hconcat : slashed segments ++ '/' :: (name ++ ['/']) =
          slashed (segments ++ [name]) ++ ['/'] := by
        rw [slashed_concat, List.append_assoc, List.cons_append]
      rw [if_pos rfl, hconcat, removeDotSegments_slashed_of_ne hall hnot List.not_mem_nil
        (by simp) (by simp), List.filter_append,
        List.filter_cons_of_pos (by simpa using hname.ne_here), List.filter_nil, slashed_concat,
        List.append_assoc, List.cons_append]
  · rw [hpath]
    exact removeDotSegments_slashed_of_ne hsegments hup List.not_mem_nil (by simp) (by simp)

/-- A colon that is not in front makes a scheme of what stands before it. -/
theorem not_leads_of_scheme {before behind : Str} (hname : IsProper (before ++ behind))
    (hbefore : ∀ c ∈ before, c ∉ ['?', '#']) (hcolon : ':' ∈ before)
    (hhead : before.head? ≠ some ':') :
    ¬ self.Leads (before ++ behind) (listingLabel (before ++ behind) isDir) := by
  obtain ⟨scheme, rest, hsplit, hfirst⟩ := List.eq_append_cons_of_mem hcolon
  have hne : scheme ≠ [] := by
    rintro rfl
    exact hhead (by rw [hsplit]; rfl)
  have hchars : ∀ c ∈ scheme, c ∉ [':', '/', '?', '#'] := by
    intro c hc hmem
    have hin : c ∈ before := hsplit ▸ List.mem_append_left _ hc
    rcases List.mem_cons.1 hmem with rfl | hmem
    · exact hfirst hc
    · rcases List.mem_cons.1 hmem with rfl | hmem
      · exact hname.slash (List.mem_append_left _ hin)
      · exact hbefore c hin hmem
  obtain ⟨tail, hlabel, hauthority⟩ : ∃ tail, listingLabel (before ++ behind) isDir =
      scheme ++ ':' :: tail ∧ cutAuthority tail = (none, tail) := by
    refine ⟨rest ++ behind ++ if isDir then ['/'] else [], by simp [listingLabel, hsplit], ?_⟩
    rcases hrest : rest ++ behind with - | ⟨c, end_⟩
    · rcases isDir with - | -
      · rfl
      · rfl
    · have hc : c ≠ '/' := by
        rintro rfl
        have hmem : '/' ∈ rest ++ behind := hrest ▸ List.mem_cons_self
        exact hname.slash (by rw [hsplit]; simpa using .inr (by simpa using hmem))
      exact cutAuthority_of_ne fun h ↦ hc (Option.some.inj h)
  have hparse : (parse (listingLabel (before ++ behind) isDir)).scheme = some scheme ∧
      (parse (listingLabel (before ++ behind) isDir)).authority = none := by
    simp only [parse, hlabel, cutScheme_append_colon hne hchars, hauthority, and_self]
  rintro ⟨horigin, -⟩
  rw [resolve, hparse.1, Option.isSome_some, if_pos rfl] at horigin
  have hnone : none = self.url.authority := hparse.2.symm.trans (congrArg Prod.snd horigin)
  have hsome := self.authority
  rw [← hnone] at hsome
  cases hsome

/-- A link that is read as a path leads to its entry exactly if the name has no percent sign. -/
theorem leads_iff_of_parse (hname : IsProper name)
    (hscheme : (parse (listingLabel name isDir)).scheme = none)
    (hauthority : (parse (listingLabel name isDir)).authority = none)
    (hpath : (parse (listingLabel name isDir)).path = listingLabel name isDir) :
    self.Leads name (listingLabel name isDir) ↔ '%' ∉ name ∧ self.KeepsFront := by
  have hnil : listingLabel name isDir ≠ [] := List.append_ne_nil_of_left_ne_nil hname.ne_nil _
  obtain ⟨kept, hremove, hpage, hdescends, hparts⟩ :=
    self.exists_removeDotSegments_label isDir hname
  have hfront : '%' ∉ name → (StartsEncoded (slashed kept ++ '/' :: listingLabel name isDir) ↔
      StartsEncoded (slashed kept ++ ['/'])) := fun h ↦
    startsEncoded_append_slash
      (not_startsEncoded_of_not_mem (percent_not_mem_listingLabel isDir h))
  rw [self.leads_iff_of_relative hscheme hauthority (by rwa [hpath])
    (by rw [hpath]; exact head?_listingLabel_ne isDir hname), hpath, hremove, KeepsFront, hpage]
  constructor
  · rintro ⟨target, htarget, htail⟩
    rw [relativePath_slashed, descends_listingLabel, hparts, htail] at htarget
    obtain ⟨⟨-, hdown⟩, hnot, hcomponents⟩ := htarget
    rw [segmentComponents_listingLabel isDir hdown] at hcomponents
    have hself : name ∈ segmentComponents name :=
      List.append_cancel_left hcomponents ▸ List.mem_singleton_self name
    have hpercent : '%' ∉ name := fun h ↦ not_mem_segmentComponents hdown h hself
    exact ⟨hpercent, (hfront hpercent).not.1 hnot⟩
  · rintro ⟨hpercent, hnot⟩
    have hdown := descends_of_isProper hname hpercent
    have hproper : ∀ part ∈ self.directory.parts ++ [name], IsProper part := by
      rw [List.forall_mem_append, List.forall_mem_singleton]
      exact ⟨self.directory.proper, hname⟩
    refine ⟨⟨_, hproper⟩, relativePath_slashed.2 ⟨⟨hdescends, ?_⟩, (hfront hpercent).not.2 hnot,
      ?_⟩, rfl⟩
    · exact (descends_listingLabel isDir).2 hdown
    · rw [hparts, segmentComponents_listingLabel isDir hdown,
        segmentComponents_of_isProper hname hpercent]

/-- **A link leads to its entry** exactly if no character of the name has a meaning in a
reference, unless the page is one whose path starts with an encoded slash behind a dot. -/
theorem leads_iff (hname : IsProper name) :
    self.Leads name (listingLabel name isDir) ↔ IsPlain name ∧ self.KeepsFront := by
  obtain ⟨before, behind, rfl, hbefore, hbehind⟩ := exists_cut name
  by_cases hscheme : ':' ∈ before → before.head? = some ':'
  · obtain ⟨hnone, hauthority, hpath⟩ := parse_listingLabel isDir hname hbefore hbehind hscheme
    by_cases hcut : behind = []
    · subst hcut
      rw [if_pos rfl] at hpath
      rw [List.append_nil] at hname hnone hauthority hpath ⊢
      rw [self.leads_iff_of_parse isDir hname hnone hauthority hpath]
      refine and_congr_left fun _ ↦ ⟨fun hpercent ↦ ?_, IsPlain.percent⟩
      exact ⟨hpercent, fun h ↦ hbefore _ h (by decide), fun h ↦ hbefore _ h (by decide), hscheme⟩
    · have hnot : ¬ IsPlain (before ++ behind) := by
        obtain ⟨c, rest, rfl⟩ := List.exists_cons_of_ne_nil hcut
        intro hplain
        rcases List.mem_pair.1 (hbehind c rfl) with rfl | rfl
        · exact hplain.query (List.mem_append_right _ List.mem_cons_self)
        · exact hplain.fragment (List.mem_append_right _ List.mem_cons_self)
      rw [if_neg hcut] at hpath
      refine iff_of_false (self.not_leads_of_length_lt hnone hauthority ?_ ?_) fun h ↦ hnot h.1
      · rw [hpath]
        exact fun h ↦ hname.slash (List.mem_append_left _ h)
      · rw [hpath, Text.utf8_append, List.length_append]
        have hpos := List.length_pos_of_ne_nil (Text.utf8_eq_nil_iff.not.2 hcut)
        omega
  · obtain ⟨hcolon, hhead⟩ := Classical.not_imp.1 hscheme
    refine iff_of_false (self.not_leads_of_scheme isDir hname hbefore hcolon hhead) fun h ↦ hhead ?_
    have hfirst := h.1.scheme (List.mem_append_left _ hcolon)
    rwa [List.head?_append_of_ne_nil _ (List.ne_nil_of_mem hcolon)] at hfirst

end ListingPage

/-! ### Listings of directories -/

/-- A page lists the entries of a directory: it is read as a listing, and each entry whose name
leads down has a link that leads to it. -/
def ListsEntries (page : ListingPage) (entries : Str → Bool → Prop) (content : Bytes) : Prop :=
  ∃ html labels, content = Text.utf8 html ∧
    Html.tokens html = listingTokens page.url.path labels ∧
    ∀ name isDir, entries name isDir → IsProper name →
      listingLabel name isDir ∈ labels ∧ page.Leads name (listingLabel name isDir)

/-- The names among the entries of a directory, and whether they are those of directories. -/
def dirEntries (entries : List (Bytes × FileTree Bytes FileData)) (name : Str) (isDir : Bool) :
    Prop :=
  ∃ entry, (Text.utf8 name, entry) ∈ entries ∧ entry.isDir = isDir

/-- The names right below a directory of embedded files, and whether they are those of
directories. -/
def embeddedEntries (assets : RustEmbed) (assetPath name : Str) (isDir : Bool) : Prop :=
  ∃ behind, dirPrefix assetPath ++ (name ++ behind) ∈ assets.iter ∧
    if isDir then behind.head? = some '/' else behind = []

section Listings

variable {H E : Type} [Multimap H HeaderName HeaderValue] [Extensions E]

/-- What is asked of the names in a listing. -/
def NamesPlain (page : ListingPage) (entries : Str → Bool → Prop) : Prop :=
  ∀ name isDir, entries name isDir → IsProper name → IsPlain name ∧ page.KeepsFront

theorem listsEntries_listingResponse_iff {page : ListingPage} {entries : Str → Bool → Prop}
    {labels : List Str} (hlabels : ∀ name isDir, entries name isDir → IsProper name →
      listingLabel name isDir ∈ labels) :
    ListsEntries page entries
        (listingResponse page.url.path labels : Response H E FileBody).body.content ↔
      NamesPlain page entries := by
  rw [content_listingResponse]
  constructor
  · rintro ⟨html, shown, -, -, hleads⟩ name isDir hentry hname
    exact (page.leads_iff isDir hname).1 (hleads name isDir hentry hname).2
  · intro hplain
    refine ⟨_, labels, rfl, tokens_listingPage _ _, fun name isDir hentry hname ↦ ?_⟩
    exact ⟨hlabels name isDir hentry hname,
      (page.leads_iff isDir hname).2 (hplain name isDir hentry hname)⟩

theorem listingLabel_mem_entryLabel {entries : List (Bytes × FileTree Bytes FileData)} {name : Str}
    {isDir : Bool} (h : dirEntries entries name isDir) :
    listingLabel name isDir ∈ entries.map entryLabel := by
  obtain ⟨entry, hentry, rfl⟩ := h
  refine List.mem_map.2 ⟨_, hentry, ?_⟩
  rw [entryLabel, Text.fromUtf8Lossy_utf8]
  rfl

theorem listingLabel_mem_embeddedEntry {assets : RustEmbed} {assetPath name : Str} {isDir : Bool}
    (h : embeddedEntries assets assetPath name isDir) (hname : IsProper name) :
    listingLabel name isDir ∈ assets.iter.filterMap (embeddedEntry assetPath) := by
  obtain ⟨behind, hpath, hbehind⟩ := h
  refine List.mem_filterMap.2 ⟨_, hpath, ?_⟩
  have hstarts : (dirPrefix assetPath).isPrefixOf (dirPrefix assetPath ++ (name ++ behind)) :=
    List.isPrefixOf_iff_prefix.2 (List.prefix_append _ _)
  have hlength : (dirPrefix assetPath ++ (name ++ behind)).length ≠
      (dirPrefix assetPath).length := by
    have hpos := List.length_pos_of_ne_nil hname.ne_nil
    rw [List.length_append, List.length_append]
    omega
  rw [embeddedEntry, if_neg (by simp only [hstarts, hlength]; decide), List.drop_left]
  dsimp only
  rcases isDir with - | -
  · obtain rfl : behind = [] := hbehind
    rw [List.append_nil, List.splitOn_eq_singleton hname.slash, if_neg hname.slash]
    rfl
  · obtain ⟨rest, rfl⟩ := List.head?_eq_some_iff.1 hbehind
    rw [List.splitOn_append_cons_self_of_not_mem hname.slash, if_pos (by simp)]
    rfl

theorem listsEntries_directoryListingResponse_iff (page : ListingPage) {files : Files}
    {dir : FilePath Bytes} {location : List Bytes}
    {entries : List (Bytes × FileTree Bytes FileData)}
    (hfind : files.find dir = some (location, .dir entries)) :
    ListsEntries page (dirEntries entries)
        (directoryListingResponse files dir page.url.path : Response H E FileBody).body.content ↔
      NamesPlain page (dirEntries entries) := by
  rw [directoryListingResponse, hfind]
  exact listsEntries_listingResponse_iff fun name isDir hentry _ ↦
    List.mem_mergeSort.2 (listingLabel_mem_entryLabel hentry)

/-- **The links of a listing lead to the entries**, in the file system and among embedded files,
exactly if the names are plain. Whatever the names are, the page is read as a listing. -/
theorem listsEntries_iff (page : ListingPage) :
    (∀ labels, ∃ html, (listingResponse page.url.path labels :
        Response H E FileBody).body.content = Text.utf8 html ∧
      Html.tokens html = listingTokens page.url.path labels) ∧
    (∀ (files : Files) (dir : FilePath Bytes) location entries,
      files.find dir = some (location, .dir entries) →
        (ListsEntries page (dirEntries entries)
            (directoryListingResponse files dir page.url.path :
              Response H E FileBody).body.content ↔
          NamesPlain page (dirEntries entries))) ∧
    ∀ (assets : RustEmbed) (assetPath : Str),
      ListsEntries page (embeddedEntries assets assetPath)
          (embeddedDirectoryListing assets assetPath page.url.path :
            Response H E FileBody).body.content ↔
        NamesPlain page (embeddedEntries assets assetPath) := by
  refine ⟨fun labels ↦ ?_, fun files dir location entries hfind ↦ ?_, fun assets assetPath ↦ ?_⟩
  · exact ⟨_, content_listingResponse _ _, tokens_listingPage _ _⟩
  · exact listsEntries_directoryListingResponse_iff page hfind
  · refine listsEntries_listingResponse_iff fun name isDir hentry hname ↦ ?_
    exact List.mem_mergeSort.2 (List.mem_dedup.2 (listingLabel_mem_embeddedEntry hentry hname))

end Listings

section OneName

/-- A tree of one file. -/
def oneFile (name : String) : Files where
  root := .dir [(osName name, .file (oneByte 0))]
  workingDir := []
  isDir_workingDir := rfl
  maxLinks := 40

/-- The page of the root. -/
def rootPage : ListingPage where
  url := { scheme := "http".toList, authority := "localhost".toList, path := ['/'] }
  directory := ⟨[], by decide⟩
  authority := rfl
  rooted := rfl
  slash := rfl
  path := rfl

theorem keepsFront_rootPage : rootPage.KeepsFront := by
  have hpath : removeDotSegments rootPage.url.path = ['/'] := by decide
  rw [ListingPage.KeepsFront, hpath]
  exact not_startsEncoded_of_not_mem (by decide)

/-- The name of the file is all there is to see. -/
theorem namesPlain_oneFile_iff {name : String} (hname : IsProper name.toList) :
    NamesPlain rootPage (dirEntries [(osName name, .file (oneByte 0))]) ↔
      IsPlain name.toList := by
  constructor
  · intro h
    exact (h _ false ⟨_, List.mem_singleton_self _, rfl⟩ hname).1
  · rintro hplain other isDir ⟨entry, hentry, -⟩ -
    obtain ⟨hbytes, -⟩ := Prod.mk.inj (List.mem_singleton.1 hentry)
    exact ⟨Text.utf8_injective hbytes ▸ hplain, keepsFront_rootPage⟩

/-- Quotes and brackets in a name do no harm. -/
theorem listsEntries_markup :
    ListsEntries rootPage (dirEntries [(osName "\"><b>&amp;'.txt", .file (oneByte 0))])
      (directoryListingResponse (oneFile "\"><b>&amp;'.txt") ⟨true, []⟩ rootPage.url.path :
        Response (AssocList HeaderName HeaderValue) (Option OriginalUri)
          FileBody).body.content := by
  have hname : IsProper "\"><b>&amp;'.txt".toList := by decide
  refine ((listsEntries_iff rootPage).2.1 (oneFile "\"><b>&amp;'.txt") ⟨true, []⟩ [] _ rfl).2
    ((namesPlain_oneFile_iff hname).2 ⟨?_, ?_, ?_, ?_⟩)
  · decide
  · decide
  · decide
  · decide

/-- The link of a file whose name starts like a URI of another scheme is such a URI. -/
theorem not_listsEntries_scheme :
    (rootPage.url.resolve (.parse "javascript:alert(1)".toList)).scheme =
        some "javascript".toList ∧
      ¬ ListsEntries rootPage
        (dirEntries [(osName "javascript:alert(1)", .file (oneByte 0))])
        (directoryListingResponse (oneFile "javascript:alert(1)") ⟨true, []⟩ rootPage.url.path :
          Response (AssocList HeaderName HeaderValue) (Option OriginalUri)
            FileBody).body.content := by
  have hname : IsProper "javascript:alert(1)".toList := by decide
  have hfind : (oneFile "javascript:alert(1)").find ⟨true, []⟩ =
    some ([], .dir [(osName "javascript:alert(1)", .file (oneByte 0))]) := rfl
  refine ⟨by decide, ?_⟩
  rw [listsEntries_directoryListingResponse_iff rootPage hfind, namesPlain_oneFile_iff hname]
  exact fun h ↦ absurd (h.scheme (by decide)) (by decide)

end OneName

end Static
