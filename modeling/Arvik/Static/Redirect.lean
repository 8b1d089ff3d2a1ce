import Arvik.Foundation.UriReference
import Arvik.Static.HeadParity

/-!
# Redirects to directories

A directory that is asked for without a slash at its end is answered with a redirect to the path
with the slash. The service finds the directory whatever number of slashes its path starts with, but
the redirect repeats the path as it was sent, and two slashes start an authority. So a redirect
leads to another host exactly where the path starts so (`staysOnOrigin_iff`).

Two things have to be shown. That a location is a path on the same host is decided by the front of
the location alone (`rooted_slashLocation_iff`). And the redirect is the only answer of either
service with its status: this is the part that goes through every branch of both, and `IsRedirect`
is stated so that each branch is closed by its status (`isRedirect_own`), by its lack of a response,
or by being the redirect itself.
-/

namespace Static

section Redirect

variable {H E B : Type} [Multimap H HeaderName HeaderValue]

/-- The location of a response is a rooted path, which leads from any page to the host and scheme
of that page. -/
def StaysOnOrigin (response : Response H E B) : Prop :=
  ∃ value location, Multimap.getAll response.headers HeaderName.location = [value] ∧
    value.bytes = Text.utf8 location ∧ UriReference.Rooted location ∧
      ∀ page : UriReference, (page.resolve (.parse location)).origin = page.origin

/-- A path that is empty or starts with a single slash. Behind two slashes a client reads an
authority. -/
def StartsOnce (path : Str) : Prop :=
  path = [] ∨ UriReference.Rooted path

omit [Multimap H HeaderName HeaderValue] in
theorem rooted_cons_iff {c : Char} {s : Str} :
    UriReference.Rooted (c :: s) ↔ c = '/' ∧ s.head? ≠ some '/' := by
  constructor
  · rintro ⟨rest, heq, hrest⟩
    obtain ⟨rfl, rfl⟩ := List.cons.inj heq
    exact ⟨rfl, hrest⟩
  · rintro ⟨rfl, hs⟩
    exact ⟨s, rfl, hs⟩

omit [Multimap H HeaderName HeaderValue] in
/-- The target with a slash after its path is rooted if the path starts with a slash at most. -/
theorem rooted_slashLocation_iff (uri : Uri) :
    UriReference.Rooted (slashLocation uri) ↔ StartsOnce uri.path := by
  obtain ⟨behind, hbehind, hlocation⟩ : ∃ behind, behind.head? ≠ some '/' ∧ slashLocation uri =
      (if uri.path.getLast? = some '/' then uri.path else uri.path ++ ['/']) ++ behind := by
    rw [slashLocation]
    rcases uri.query with - | query
    · exact ⟨[], nofun, (List.append_nil _).symm⟩
    · exact ⟨'?' :: query, by simp, rfl⟩
  rw [hlocation, StartsOnce]
  rcases hpath : uri.path with - | ⟨c, rest⟩
  · refine iff_of_true ?_ (.inl rfl)
    exact ⟨behind, rfl, hbehind⟩
  · rw [or_iff_right (List.cons_ne_nil _ _), rooted_cons_iff]
    rcases rest with - | ⟨d, rest⟩
    · by_cases hc : c = '/'
      · rw [hc, List.getLast?_singleton, if_pos rfl, List.singleton_append, rooted_cons_iff]
        exact iff_of_true ⟨rfl, hbehind⟩ ⟨rfl, nofun⟩
      · have hlast : [c].getLast? ≠ some '/' := fun h ↦ hc (Option.some.inj h)
        rw [if_neg hlast, List.singleton_append, List.cons_append, rooted_cons_iff]
        exact iff_of_false (fun h ↦ hc h.1) fun h ↦ hc h.1
    · -- Two characters of the path decide, with or without a slash behind them.
      split
      · exact rooted_cons_iff
      · exact rooted_cons_iff

variable [Extensions E] [FromBytes B] [Extensions.Slot E OriginalUri]

/-- A redirect stays with the host exactly if the path it repeats starts with one slash. -/
theorem staysOnOrigin_redirectToSlash_iff {req : Request H E B} {value : HeaderValue}
    (hvalue : HeaderValue.fromStr (slashLocation (redirectedUri req)) = some value) :
    StaysOnOrigin (redirectToSlash req : Response H E B) ↔
      StartsOnce (redirectedUri req).path := by
  have hall : Multimap.getAll (redirectToSlash req : Response H E B).headers
      HeaderName.location = [value] := by
    rw [redirectToSlash_eq, hvalue]
    exact ResponseBuilder.getAll_body_ofPairs _ _
  rw [StaysOnOrigin, hall, ← rooted_slashLocation_iff]
  constructor
  · rintro ⟨_, location, hlocation, hbytes, hrooted, -⟩
    obtain rfl := List.singleton_inj.1 hlocation
    rwa [Text.utf8_injective ((HeaderValue.fromStr_bytes hvalue).symm.trans hbytes)]
  · intro hrooted
    exact ⟨value, _, rfl, HeaderValue.fromStr_bytes hvalue, hrooted,
      UriReference.origin_resolve_of_rooted hrooted⟩

/-- An answer with the status of a redirect is the redirect, with a valid location. -/
def IsRedirect (req : Request H E B) (answer : Handled (Response H E B)) : Prop :=
  ∀ response, answer = .own response → response.status = .temporaryRedirect →
    response = redirectToSlash req ∧
      ∃ value, HeaderValue.fromStr (slashLocation (redirectedUri req)) = some value

theorem isRedirect_redirectToSlash (req : Request H E B) :
    IsRedirect req (.own (redirectToSlash req)) := by
  rintro _ ⟨⟩ hstatus
  have hne : StatusCode.internalServerError ≠ .temporaryRedirect := by decide
  refine ⟨rfl, Option.isSome_iff_exists.1 (Option.ne_none_iff_isSome.1 fun hnone ↦ hne ?_)⟩
  -- An invalid location makes the answer a 500.
  rwa [redirectToSlash_eq, hnone] at hstatus

theorem isRedirect_of_ne {req : Request H E B} {answer : Handled (Response H E B)}
    (h : ∀ response, answer = .own response → response.status ≠ .temporaryRedirect) :
    IsRedirect req answer :=
  fun response hanswer hstatus ↦ absurd hstatus (h response hanswer)

theorem isRedirect_fallback (req : Request H E B) : IsRedirect req .fallback :=
  isRedirect_of_ne fun _ hanswer ↦ by cases hanswer

theorem isRedirect_panicked (req : Request H E B) : IsRedirect req .panicked :=
  isRedirect_of_ne fun _ hanswer ↦ by cases hanswer

theorem isRedirect_own {req : Request H E B} {response : Response H E B} (code : StatusCode)
    (hstatus : response.status = code) (hcode : code ≠ .temporaryRedirect) :
    IsRedirect req (.own response) :=
  isRedirect_of_ne fun _ hanswer ↦ Handled.own.inj hanswer ▸ hstatus ▸ hcode

omit [Extensions.Slot E OriginalUri] in
/-- The statuses an asset is answered with. -/
theorem status_serveAsset [HttpDateLib] {asset : Asset B} {req : Request H E B} {head : Bool}
    {cacheControl : Option HeaderValue} {response : Response H E B}
    (h : serveAsset asset req head cacheControl = some response) :
    response.status ∈ [.ok, .partialContent, .notModified, .rangeNotSatisfiable] := by
  have hrespond : ∀ {range}, respond asset range head cacheControl = some response →
      response.status ∈ [.ok, .partialContent, .notModified, .rangeNotSatisfiable] := fun h ↦ by
    rw [(respond_eq_some h).1]
    split <;> decide
  rw [serveAsset] at h
  split at h
  · rw [(notModified_eq_some h).1]
    decide
  · split at h
    · exact hrespond h
    · exact hrespond h
    · rw [← Option.some.inj h, (rangeNotSatisfiable_spec asset.len).1]
      decide

theorem isRedirect_serveAsset [HttpDateLib] {asset : Asset B} {req : Request H E B} {head : Bool}
    {cacheControl : Option HeaderValue} :
    IsRedirect req (.ofOption (serveAsset asset req head cacheControl)) :=
  isRedirect_of_ne fun response hanswer hstatus ↦ by
    have hmem := status_serveAsset (Handled.ofOption_eq_own hanswer)
    rw [hstatus] at hmem
    exact absurd hmem (by decide)

end Redirect

section Services

variable {H E : Type} [Multimap H HeaderName HeaderValue] [Extensions E] [HttpDateLib]
  [QualityLib] [MimeGuessLib] [Extensions.Slot E OriginalUri] {files : Files}
  {assets : RustEmbed}

theorem isRedirect_serveSelected {self : ServeDir} {path : FilePath Bytes}
    {existing : FileTree Bytes FileData} {assetPath : Str} {head : Bool}
    (req : Request H E FileBody) :
    IsRedirect req (self.serveSelected files req path existing assetPath head) := by
  simp only [ServeDir.serveSelected]
  split
  · rw [serveFsAsset]
    split
    · exact isRedirect_own .notFound rfl (by decide)
    · exact isRedirect_serveAsset
  · exact isRedirect_fallback req

theorem ServeDir.isRedirect_handleDirectory (self : ServeDir) (req : Request H E FileBody)
    (relative : RelativePath) (dir : FilePath Bytes) :
    IsRedirect req (self.handleDirectory files req relative dir) := by
  unfold ServeDir.handleDirectory
  split
  · exact isRedirect_redirectToSlash req
  · dsimp only
    split
    · exact isRedirect_serveSelected req
    · split
      · rw [directoryListingResponse]
        split
        · exact isRedirect_own .ok rfl (by decide)
        · exact isRedirect_own .notFound rfl (by decide)
      · exact isRedirect_fallback req

theorem ServeDir.isRedirect_handle (self : ServeDir) (req : Request H E FileBody) :
    IsRedirect req (self.handle files req) := by
  -- Only the branch of a directory asked for without its slash builds a redirect.
  unfold ServeDir.handle
  split
  · split
    · exact isRedirect_fallback req
    · exact isRedirect_own .methodNotAllowed rfl (by decide)
  · split
    · exact isRedirect_fallback req
    · dsimp only
      split
      · exact isRedirect_fallback req
      · split
        · exact isRedirect_fallback req
        · split
          · exact self.isRedirect_handleDirectory req _ _
          · exact isRedirect_serveSelected req

omit [QualityLib] [MimeGuessLib] in
theorem isRedirect_serveCandidate {cache : Memo Str EmbeddedMeta} {contended : Bool}
    {candidate : EmbeddedCandidate} {head : Bool} {cacheControl : Option HeaderValue}
    (req : Request H E FileBody) :
    IsRedirect req (serveCandidate cache contended candidate req head cacheControl).1 := by
  rw [serveCandidate]
  split
  · exact isRedirect_serveAsset
  · exact isRedirect_panicked req

theorem EmbeddedFileService.isRedirect_handle (self : EmbeddedFileService)
    (cache : Memo Str EmbeddedMeta) (contended : Bool) (req : Request H E FileBody) :
    IsRedirect req (self.handle assets cache contended req).1 := by
  unfold EmbeddedFileService.handle
  split
  · dsimp only
    split
    · exact isRedirect_fallback req
    · exact isRedirect_own .methodNotAllowed rfl (by decide)
  · split
    · exact isRedirect_fallback req
    · split
      · exact isRedirect_serveCandidate req
      · split
        · unfold EmbeddedFileService.handleDirectory
          split
          · exact isRedirect_redirectToSlash req
          · split
            · exact isRedirect_serveCandidate req
            · split
              · exact isRedirect_own .ok rfl (by decide)
              · exact isRedirect_fallback req
        · exact isRedirect_fallback req

/-- **Redirects stay with the host** exactly where the path they repeat starts with one slash. The
directory is found under any number of slashes, so the other paths are redirected as well. -/
theorem staysOnOrigin_iff :
    (∀ (files : Files) (self : ServeDir) (req : Request H E FileBody)
      (response : Response H E FileBody), self.handle files req = .own response →
        response.status = .temporaryRedirect →
          (StaysOnOrigin response ↔ StartsOnce (redirectedUri req).path)) ∧
    ∀ (assets : RustEmbed) (self : EmbeddedFileService) (cache : Memo Str EmbeddedMeta)
      (contended : Bool) (req : Request H E FileBody) (response : Response H E FileBody),
        (self.handle assets cache contended req).1 = .own response →
          response.status = .temporaryRedirect →
            (StaysOnOrigin response ↔ StartsOnce (redirectedUri req).path) := by
  have hredirect : ∀ {req : Request H E FileBody} {answer : Handled (Response H E FileBody)}
      {response : Response H E FileBody}, IsRedirect req answer → answer = .own response →
        response.status = .temporaryRedirect →
          (StaysOnOrigin response ↔ StartsOnce (redirectedUri req).path) := by
    intro req answer response h hanswer hstatus
    obtain ⟨rfl, value, hvalue⟩ := h response hanswer hstatus
    exact staysOnOrigin_redirectToSlash_iff hvalue
  constructor
  · intro files self req response
    exact hredirect (self.isRedirect_handle req)
  · intro assets self cache contended req response
    exact hredirect (self.isRedirect_handle cache contended req)

end Services

/-! ### Two slashes -/

section TwoSlashes

attribute [local instance] noDates unweighted octets

/-- The service for a whole file system. -/
def rootDir : ServeDir where
  root := ⟨true, []⟩

/-- A request for a path, made directly. -/
def pathRequest (path : Str) :
    Request (AssocList HeaderName HeaderValue) (Option OriginalUri) FileBody :=
  Request.new ⟨.get, { path }, Multimap.empty, Extensions.empty, .bytes [], .http11⟩

theorem relativePath_srv {slashes : Str} (h : slashes ∈ [['/'], ['/', '/']]) :
    relativePath (slashes ++ "srv".toList) = some ⟨["srv".toList], by decide⟩ := by
  have hdecoded : Percent.decodeUtf8 "srv".toList = some "srv".toList :=
    Percent.decodeUtf8_eq_self_iff.2 (by decide)
  rw [relativePath, if_pos (validPercentEncoding_of_not_mem ?_)]
  · rcases List.mem_pair.1 h with rfl | rfl
    · exact congrArg (Option.bind · splitDecoded) hdecoded
    · exact congrArg (Option.bind · splitDecoded) hdecoded
  · rcases List.mem_pair.1 h with rfl | rfl
    · decide
    · decide

/-- The directory is redirected to its path with a slash. -/
theorem handle_srv (slashes : Str) (h : slashes ∈ [['/'], ['/', '/']]) :
    rootDir.handle plantedLink (pathRequest (slashes ++ "srv".toList)) =
      .own (redirectToSlash (pathRequest (slashes ++ "srv".toList))) := by
  have hpath : relativePath (pathRequest (slashes ++ "srv".toList)).uri.path =
    some ⟨["srv".toList], by decide⟩ := relativePath_srv h
  have hmethod : (!isGetOrHead (pathRequest (slashes ++ "srv".toList)).method) = false := rfl
  rw [ServeDir.handle, hmethod, if_neg Bool.false_ne_true, hpath]
  rcases List.mem_pair.1 h with rfl | rfl
  · rfl
  · rfl

/-- A directory asked for with two slashes is redirected to a host of its name. -/
theorem not_staysOnOrigin_twoSlashes :
    ∃ response, rootDir.handle plantedLink (pathRequest "//srv".toList) = .own response ∧
      response.status = .temporaryRedirect ∧
      Multimap.getAll response.headers HeaderName.location = [HeaderValue.fromStatic "//srv/"] ∧
      (UriReference.resolve (.parse "http://localhost/".toList)
        (.parse "//srv/".toList)).authority = some "srv".toList ∧
      ¬ StaysOnOrigin response := by
  refine ⟨_, handle_srv ['/', '/'] (by decide), rfl, rfl, by decide, ?_⟩
  have hvalue : HeaderValue.fromStr (slashLocation (redirectedUri (pathRequest "//srv".toList))) =
    some (HeaderValue.fromStatic "//srv/") := by decide
  show ¬ StaysOnOrigin (redirectToSlash (pathRequest "//srv".toList))
  rw [staysOnOrigin_redirectToSlash_iff hvalue]
  rintro (hnil | hrooted)
  · exact absurd hnil (by decide)
  · exact (rooted_cons_iff.1 hrooted).2 rfl

/-- With one slash it is redirected to its path on the same host. -/
theorem staysOnOrigin_oneSlash :
    ∃ response, rootDir.handle plantedLink (pathRequest "/srv".toList) = .own response ∧
      StaysOnOrigin response :=
  ⟨_, handle_srv ['/'] (by decide),
    (staysOnOrigin_iff.1 plantedLink rootDir _ _ (handle_srv ['/'] (by decide)) rfl).2
      (.inr ⟨"srv".toList, rfl, by decide⟩)⟩

end TwoSlashes

end Static
