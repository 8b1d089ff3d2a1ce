import Arvik.Foundation.Percent

/-!
# Relative paths

The path of a request, decoded and cut into components that lead down: what is joined to the root of
a service. The components carry the proof that they are proper, so whatever is built from them need
not ask again whether one of them leads up, is empty or has a separator in it.

The path is decoded once and cut afterwards. A `%2F` is therefore a separator like any other, and a
`%252F` becomes a percent sign in a name. That the cut refuses nothing it need not refuse is the
other direction: every list of proper components is requested by some path, the one that escapes
every byte (`relativePath_requestPath`), with and without a slash behind it.
-/

namespace Static

/-- Every percent sign starts an escape. -/
def validPercentEncoding : Bytes → Bool
  | [] => true
  | b :: rest =>
    if b = 37 then
      match rest with
      | h :: l :: rest =>
        (Percent.hexVal h).isSome && (Percent.hexVal l).isSome && validPercentEncoding rest
      | _ => false
    else validPercentEncoding rest

/-- A component that leads down: a name without separators and without a NUL, and neither empty nor
one of the two names made of dots. -/
structure IsProper (part : Str) : Prop where
  ne_nil : part ≠ []
  ne_here : part ≠ ['.']
  ne_up : part ≠ ['.', '.']
  slash : '/' ∉ part
  backslash : '\\' ∉ part
  nul : '\x00' ∉ part

instance : DecidablePred IsProper := fun part ↦
  decidable_of_iff (part ≠ [] ∧ part ≠ ['.'] ∧ part ≠ ['.', '.'] ∧
      '/' ∉ part ∧ '\\' ∉ part ∧ '\x00' ∉ part)
    ⟨fun ⟨hnil, hhere, hup, hslash, hback, hnul⟩ ↦ ⟨hnil, hhere, hup, hslash, hback, hnul⟩,
      fun h ↦ ⟨h.ne_nil, h.ne_here, h.ne_up, h.slash, h.backslash, h.nul⟩⟩

/-- A relative path that leads down. -/
structure RelativePath where
  parts : List Str
  proper : ∀ part ∈ parts, IsProper part

/-- The text of a relative path. -/
def RelativePath.assetPath (self : RelativePath) : Str :=
  ['/'].intercalate self.parts

/-- The components of a decoded path: empty ones and single dots are dropped, and two dots, a
backslash or a NUL anywhere, or a separator in front, are refused. -/
def splitDecoded (decoded : Str) : Option RelativePath :=
  if h : decoded.head? ≠ some '/' ∧ '\\' ∉ decoded ∧ '\x00' ∉ decoded ∧
      ['.', '.'] ∉ decoded.splitOn '/' then
    some {
      parts := (decoded.splitOn '/').filter fun part ↦ part ≠ [] ∧ part ≠ ['.']
      proper := by
        intro part hpart
        obtain ⟨hmem, hne⟩ := List.mem_filter.1 hpart
        obtain ⟨hnil, hhere⟩ := of_decide_eq_true hne
        obtain ⟨hslash, hsub⟩ := Text.mem_splitOn hmem
        exact ⟨hnil, hhere, fun hup ↦ h.2.2.2 (hup ▸ hmem), hslash, fun hc ↦ h.2.1 (hsub hc),
          fun hc ↦ h.2.2.1 (hsub hc)⟩ }
  else none

/-- The relative path a request path stands for. -/
def relativePath (path : Str) : Option RelativePath :=
  if validPercentEncoding (Text.utf8 path) then
    (Percent.decodeUtf8 (path.dropWhile fun c ↦ c = '/')).bind splitDecoded
  else none

/-! ### Requesting a relative path -/

theorem validPercentEncoding_cons_of_ne {b : UInt8} (h : b ≠ 37) (rest : Bytes) :
    validPercentEncoding (b :: rest) = validPercentEncoding rest := by
  rw [validPercentEncoding.eq_def]
  exact if_neg h

/-- Without percent signs there is nothing to check. -/
theorem validPercentEncoding_of_not_mem {bytes : Bytes} (h : 37 ∉ bytes) :
    validPercentEncoding bytes := by
  induction bytes with
  | nil => rfl
  | cons b bytes ih =>
    obtain ⟨hb, hbytes⟩ := List.ne_and_not_mem_of_not_mem_cons h
    rw [validPercentEncoding_cons_of_ne hb.symm]
    exact ih hbytes

theorem validPercentEncoding_encodeAll_append (bytes rest : Bytes) :
    validPercentEncoding (Percent.encodeAll bytes ++ rest) = validPercentEncoding rest := by
  induction bytes with
  | nil => rfl
  | cons b bytes ih =>
    have hhigh := Percent.hexVal_hexDigit (Percent.toNat_div_lt b)
    have hlow := Percent.hexVal_hexDigit (Percent.toNat_mod_lt b)
    rw [Percent.encodeAll, List.flatMap_cons, List.append_assoc, Percent.encodeByte]
    show validPercentEncoding (37 :: _ :: _ :: (Percent.encodeAll bytes ++ rest)) = _
    rw [validPercentEncoding, if_pos rfl, hhigh, hlow, ih]
    rfl

variable {rest : Str}

/-- The components of a relative path, possibly with a slash after it. -/
theorem splitOn_assetPath_append (self : RelativePath) (hrest : rest ∈ [[], ['/']]) :
    ∃ tail, (self.assetPath ++ rest).splitOn '/' = self.parts ++ tail ∧
      ∀ part ∈ tail, part = [] := by
  have hparts : ∃ tail, self.assetPath.splitOn '/' = self.parts ++ tail ∧
      ∀ part ∈ tail, part = [] := by
    by_cases hnil : self.parts = []
    · rw [RelativePath.assetPath, hnil]
      exact ⟨[[]], rfl, fun part hpart ↦ List.mem_singleton.1 hpart⟩
    · rw [RelativePath.assetPath,
        List.splitOn_intercalate '/' (fun part hpart ↦ (self.proper part hpart).slash) hnil]
      exact ⟨[], (List.append_nil _).symm, nofun⟩
  obtain ⟨tail, htail, hempty⟩ := hparts
  rcases List.mem_pair.1 hrest with rfl | rfl
  · rw [List.append_nil]
    exact ⟨tail, htail, hempty⟩
  · rw [List.splitOn_append_cons_self, htail, List.splitOn_nil, List.append_assoc]
    refine ⟨_, rfl, fun part hpart ↦ ?_⟩
    rcases List.mem_append.1 hpart with hpart | hpart
    · exact hempty part hpart
    · exact List.mem_singleton.1 hpart

/-- A relative path does not start with a separator. -/
theorem head?_assetPath_append (self : RelativePath) (rest : Str) (hnil : self.parts ≠ []) :
    ∃ c, (self.assetPath ++ rest).head? = some c ∧ c ≠ '/' := by
  obtain ⟨first, parts, hparts⟩ := List.exists_cons_of_ne_nil hnil
  have hproper := self.proper first (hparts ▸ List.mem_cons_self)
  obtain ⟨c, first', hfirst⟩ := List.exists_cons_of_ne_nil hproper.ne_nil
  have hslash := hproper.slash
  rw [hfirst] at hslash
  refine ⟨c, ?_, fun h ↦ hslash (h ▸ List.mem_cons_self)⟩
  rw [RelativePath.assetPath, hparts, hfirst]
  rcases parts with - | ⟨second, parts⟩
  · rw [List.intercalate_singleton]
    rfl
  · rw [List.intercalate_cons_cons]
    rfl

/-- Components that lead down are what they are decoded to. -/
theorem splitDecoded_assetPath_append (self : RelativePath) (hrest : rest ∈ [[], ['/']])
    (hnil : self.parts = [] → rest = []) :
    splitDecoded (self.assetPath ++ rest) = some self := by
  obtain ⟨tail, htail, hempty⟩ := splitOn_assetPath_append self hrest
  have hmem : ∀ c ∈ self.assetPath ++ rest, c = '/' ∨ ∃ part ∈ self.parts, c ∈ part := by
    intro c hc
    rcases List.mem_append.1 hc with hc | hc
    · exact (Text.mem_intercalate hc).imp_left List.mem_singleton.1
    · rcases List.mem_pair.1 hrest with rfl | rfl
      · cases hc
      · exact .inl (List.mem_singleton.1 hc)
  have hhead : (self.assetPath ++ rest).head? ≠ some '/' := by
    by_cases hparts : self.parts = []
    · rw [RelativePath.assetPath, hparts, hnil hparts]
      nofun
    · obtain ⟨c, hc, hne⟩ := head?_assetPath_append self rest hparts
      rw [hc]
      exact fun h ↦ hne (Option.some.inj h)
  have hback : '\\' ∉ self.assetPath ++ rest := by
    intro hc
    obtain h | ⟨part, hpart, hc⟩ := hmem _ hc
    · exact absurd h (by decide)
    · exact (self.proper part hpart).backslash hc
  have hnul : '\x00' ∉ self.assetPath ++ rest := by
    intro hc
    obtain h | ⟨part, hpart, hc⟩ := hmem _ hc
    · exact absurd h (by decide)
    · exact (self.proper part hpart).nul hc
  have hup : ['.', '.'] ∉ self.parts ++ tail := by
    intro h
    rcases List.mem_append.1 h with h | h
    · exact (self.proper _ h).ne_up rfl
    · exact absurd (hempty _ h) (by decide)
  -- The empty part a trailing slash leaves is filtered out again.
  have hfilter : (self.parts ++ tail).filter (fun part ↦ part ≠ [] ∧ part ≠ ['.']) =
      self.parts := by
    rw [List.filter_append, List.filter_eq_self.2, List.filter_eq_nil_iff.2, List.append_nil]
    · intro part hpart
      simp [hempty part hpart]
    · intro part hpart
      simp [(self.proper part hpart).ne_nil, (self.proper part hpart).ne_here]
  rw [splitDecoded, dif_pos ⟨hhead, hback, hnul, htail ▸ hup⟩]
  simp only [htail, hfilter]

/-- A request path for a relative path: every byte is escaped. -/
def RelativePath.requestPath (self : RelativePath) (slash : Bool) : Str :=
  '/' :: Percent.encodeText self.assetPath ++ if slash then ['/'] else []

theorem validPercentEncoding_requestPath (self : RelativePath) (slash : Bool) :
    validPercentEncoding (Text.utf8 (self.requestPath slash)) := by
  have hslash : Text.utf8 ['/'] = [47] := rfl
  rw [RelativePath.requestPath, List.cons_append, ← List.singleton_append, Text.utf8_append,
    Text.utf8_append, Percent.utf8_encodeText, hslash, List.singleton_append,
    validPercentEncoding_cons_of_ne (by decide), validPercentEncoding_encodeAll_append]
  split <;> decide

/-- Every relative path is requested, with or without a slash after it. -/
theorem relativePath_requestPath (self : RelativePath) (slash : Bool) :
    relativePath (self.requestPath slash) = some self := by
  rw [relativePath, if_pos (validPercentEncoding_requestPath self slash), RelativePath.requestPath,
    List.cons_append, List.dropWhile_cons_of_pos (by decide)]
  by_cases hparts : self.parts = []
  · have hnil : self.assetPath = [] := by rw [RelativePath.assetPath, hparts]; rfl
    have hdrop : (Percent.encodeText self.assetPath ++ if slash then ['/'] else []).dropWhile
        (fun c ↦ c = '/') = [] := by
      rw [hnil]
      split <;> rfl
    have hself : splitDecoded (self.assetPath ++ []) = some self :=
      splitDecoded_assetPath_append self (by decide) fun _ ↦ rfl
    rw [hnil, List.append_nil] at hself
    rw [hdrop, ← hself]
    rfl
  · have hne : self.assetPath ≠ [] := by
      obtain ⟨c, hc, -⟩ := head?_assetPath_append self [] hparts
      rw [List.append_nil] at hc
      exact fun h ↦ by rw [h] at hc; cases hc
    obtain ⟨escaped, hescaped⟩ := List.head?_eq_some_iff.1 (Percent.head?_encodeText hne)
    have hdrop : (Percent.encodeText self.assetPath ++ if slash then ['/'] else []).dropWhile
        (fun c ↦ c = '/') = Percent.encodeText self.assetPath ++ if slash then ['/'] else [] := by
      rw [hescaped, List.cons_append]
      exact List.dropWhile_cons_of_neg (by decide)
    have hdecode : Percent.decode (Text.utf8 (if slash then ['/'] else [])) =
        Text.utf8 (if slash then ['/'] else []) := by
      split <;> rfl
    rw [hdrop, Percent.decodeUtf8_encodeText_append, hdecode, ← Text.utf8_append,
      Text.fromUtf8_utf8, Option.bind_some]
    refine splitDecoded_assetPath_append self ?_ fun h ↦ absurd h hparts
    split <;> simp

/-- No character of an escaped text is a slash. -/
theorem slash_not_mem_encodeText (s : Str) : '/' ∉ Percent.encodeText s := by
  have hdigit : ∀ n : Fin 16, Char.ofNat (Percent.hexDigit (UInt8.ofNat n.1)).toNat ≠ '/' := by
    decide
  have hhex : ∀ n : UInt8, n.toNat < 16 → Char.ofNat (Percent.hexDigit n).toNat ≠ '/' := by
    intro n hn
    have h := hdigit ⟨n.toNat, hn⟩
    rwa [UInt8.ofNat_toNat] at h
  intro h
  obtain ⟨b, hb, hslash⟩ := List.mem_map.1 h
  obtain ⟨x, -, hx⟩ := List.mem_flatMap.1 hb
  simp only [Percent.encodeByte, List.mem_cons, List.not_mem_nil, or_false] at hx
  rcases hx with rfl | rfl | rfl
  · exact absurd hslash (by decide)
  · exact hhex _ (Percent.toNat_div_lt x) hslash
  · exact hhex _ (Percent.toNat_mod_lt x) hslash

/-- Every relative path is requested by a path without a slash at its end. -/
theorem exists_path_without_slash (self : RelativePath) :
    ∃ path, relativePath path = some self ∧ path.getLast? ≠ some '/' := by
  by_cases hparts : self.parts = []
  · obtain ⟨parts, proper⟩ := self
    obtain rfl : parts = [] := hparts
    exact ⟨"/.".toList, rfl, by decide⟩
  · have hne : Percent.encodeText self.assetPath ≠ [] := by
      obtain ⟨c, hc, -⟩ := head?_assetPath_append self [] hparts
      have hassets : self.assetPath ≠ [] := by
        rw [List.append_nil] at hc
        exact fun h ↦ by rw [h] at hc; exact nomatch hc
      intro h
      have hhead := Percent.head?_encodeText hassets
      rw [h] at hhead
      exact nomatch hhead
    refine ⟨self.requestPath false, relativePath_requestPath self false, ?_⟩
    rw [RelativePath.requestPath, if_neg Bool.false_ne_true, List.append_nil,
      List.getLast?_cons_of_ne_nil hne]
    exact fun h ↦ slash_not_mem_encodeText _ (List.mem_of_getLast? h)

end Static
