import Arvik.Middleware.Cors

/-!
# What cross-origin responses vary on

A shared cache may give the response to one request to another request that differs in its origin,
unless the response says with `Vary` that it depends on the origin. `VarySound` is what is expected
of two responses: if their `Access-Control-*` headers differ, both say so.

Only an answer for an origin says so. The response to a request without an origin, or with one that
is not allowed, is that of the inner service or a bare refusal of a preflight, and it is these that
a cache may hand to an allowed origin.

There are three treatments of a request: it is left to the inner service, a preflight is refused, or
it is answered for its origin. `varySound_iff` goes through the pairs of treatments, with a lemma
for each pair, and the relation is symmetric, so that six of nine are left. The condition names what
makes a pair harmless: two answers with the same headers, an inner service that has set the same
ones itself, or an origin in `Vary` on both sides.
-/

variable {H E B : Type} [Multimap H HeaderName HeaderValue] [Extensions E] [FromBytes B]

/-- If the headers of the protocol differ, both responses vary on the origin: a cache may have
stored either of the two. -/
def VarySound (res₁ res₂ : Response H E B) : Prop :=
  (∃ name : HeaderName, name.isAccessControl ∧
      Multimap.getAll res₁.headers name ≠ Multimap.getAll res₂.headers name) →
    HeaderName.origin ∈ FieldList.listed res₁.headers HeaderName.vary ∧
      HeaderName.origin ∈ FieldList.listed res₂.headers HeaderName.vary

theorem HeaderName.ne_vary_of_isAccessControl {name : HeaderName} (h : name.isAccessControl) :
    name ≠ HeaderName.vary := by
  rintro rfl
  exact absurd h (by decide)

namespace CorsConfig

/-- The names the response of a treatment varies on. -/
def variesOn (self : CorsConfig) (preflight : Bool) (inner : H) : Treatment → List HeaderName
  | .untouched => FieldList.listed inner HeaderName.vary
  | .rejected => []
  | .answered _ =>
    if preflight then
      [HeaderName.origin, HeaderName.accessControlRequestMethod,
        HeaderName.accessControlRequestHeaders]
    else
      FieldList.listed inner HeaderName.vary ++
        if self.variesOnOrigin then [HeaderName.origin] else []

theorem listed_vary_buildPreflight {self : CorsConfig} {requestHeaders : H}
    {origin allowOrigin : HeaderValue} (h : self.resolvedOrigin origin = some allowOrigin) :
    FieldList.listed (self.buildPreflight origin requestHeaders : Response H E B).headers
        HeaderName.vary =
      [HeaderName.origin, HeaderName.accessControlRequestMethod,
        HeaderName.accessControlRequestHeaders] := by
  have hvalues : Multimap.valuesFor HeaderName.vary
      (self.preflightHeaders requestHeaders allowOrigin) = [HeaderValue.fromStatic
        "Origin, Access-Control-Request-Method, Access-Control-Request-Headers"] := by
    simp (disch := decide) only [preflightHeaders, Multimap.valuesFor_append,
      Multimap.valuesFor_cons, Multimap.valuesFor_nil, valuesFor_credentials_of_ne,
      Multimap.valuesFor_map_toList_of_ne, if_neg]
    rfl
  rw [FieldList.listed, getAll_buildPreflight h, hvalues, List.flatMap_singleton]
  decide

omit [Extensions E] [FromBytes B] in
theorem listed_vary_applyResponseHeaders {self : CorsConfig} {origin allowOrigin : HeaderValue}
    (h : self.resolvedOrigin origin = some allowOrigin) (response : Response H E B) :
    FieldList.listed (self.applyResponseHeaders response origin).headers HeaderName.vary =
      FieldList.listed response.headers HeaderName.vary ++
        if self.variesOnOrigin then [HeaderName.origin] else [] := by
  have hname : FieldList.names (HeaderValue.fromStatic "origin") = [HeaderName.origin] := by decide
  -- None of the other headers of an answer is `Vary`.
  have hunset : self.headerFor allowOrigin HeaderName.vary = none := by
    rw [headerFor, if_neg (by decide), if_neg (by decide), if_neg (by decide)]
  rw [FieldList.listed, getAll_applyResponseHeaders h, hunset, List.flatMap_append]
  refine congrArg (FieldList.listed response.headers HeaderName.vary ++ ·) ?_
  by_cases hvaries : self.variesOnOrigin
  · rw [if_pos ⟨rfl, hvaries⟩, if_pos hvaries, List.flatMap_singleton, hname]
  · rw [if_neg fun h ↦ hvaries h.2, if_neg hvaries, List.flatMap_nil]

end CorsConfig

/-- **What a response varies on.** -/
theorem CorsLayer.listed_vary_call (self : CorsLayer)
    (inner : Request H E B → Id (Response H E B)) (req : Request H E B) :
    FieldList.listed (self.call inner req).run.headers HeaderName.vary =
      self.config.variesOn (isPreflight req) (inner req).run.headers
        (self.config.treatment req) := by
  rw [call, CorsConfig.treatment]
  rcases Multimap.get req.headers HeaderName.origin with - | origin
  · rfl
  dsimp only
  by_cases hpreflight : isPreflight req
  · rw [if_pos hpreflight, if_pos hpreflight, hpreflight]
    rcases hresolved : self.config.resolvedOrigin origin with - | allowOrigin
    · rw [FieldList.listed]
      exact congrArg (List.flatMap FieldList.names)
        (CorsConfig.getAll_buildPreflight_of_none hresolved _)
    · exact CorsConfig.listed_vary_buildPreflight hresolved
  · rw [if_neg hpreflight, if_neg hpreflight, Bool.eq_false_iff.2 hpreflight]
    show FieldList.listed (self.config.applyResponseHeaders (inner req).run origin).headers _ = _
    rcases hresolved : self.config.resolvedOrigin origin with - | allowOrigin
    · rw [CorsConfig.applyResponseHeaders, hresolved]
      rfl
    · exact CorsConfig.listed_vary_applyResponseHeaders hresolved _

/-! ### Pairs of treatments -/

namespace CorsConfig

variable (self : CorsConfig) (preflight : Bool) (requestHeaders inner : H)

/-- `VarySound` for the responses of two treatments. -/
def Sound (t₁ t₂ : Treatment) : Prop :=
  (∃ name : HeaderName, name.isAccessControl ∧
      self.valuesOf preflight requestHeaders inner name t₁ ≠
        self.valuesOf preflight requestHeaders inner name t₂) →
    HeaderName.origin ∈ self.variesOn preflight inner t₁ ∧
      HeaderName.origin ∈ self.variesOn preflight inner t₂

/-- The response of the inner service has of itself what the layer would set for an origin. -/
def AlreadySet (allowOrigin : HeaderValue) : Prop :=
  if preflight then
    ∀ name : HeaderName, name.isAccessControl → Multimap.getAll inner name =
      Multimap.valuesFor name (self.preflightHeaders requestHeaders allowOrigin)
  else
    ∀ name value, self.headerFor allowOrigin name = some value →
      Multimap.getAll inner name = [value]

/-- When the responses of two treatments do not endanger each other. -/
def CacheSafe : Treatment → Treatment → Prop
  | .untouched, .rejected | .rejected, .untouched =>
    ∀ name : HeaderName, name.isAccessControl → Multimap.getAll inner name = []
  | .untouched, .answered allowOrigin | .answered allowOrigin, .untouched =>
    HeaderName.origin ∈ FieldList.listed inner HeaderName.vary ∨
      self.AlreadySet preflight requestHeaders inner allowOrigin
  | .rejected, .answered _ | .answered _, .rejected => False
  | .untouched, .untouched | .rejected, .rejected | .answered _, .answered _ => True

variable {self preflight requestHeaders inner}

theorem Sound.symm {t₁ t₂ : Treatment} (h : self.Sound preflight requestHeaders inner t₁ t₂) :
    self.Sound preflight requestHeaders inner t₂ t₁ :=
  fun ⟨name, hname, hne⟩ ↦ (h ⟨name, hname, hne.symm⟩).symm

theorem sound_comm {t₁ t₂ : Treatment} :
    self.Sound preflight requestHeaders inner t₁ t₂ ↔
      self.Sound preflight requestHeaders inner t₂ t₁ :=
  ⟨Sound.symm, Sound.symm⟩

theorem sound_refl (t : Treatment) : self.Sound preflight requestHeaders inner t t :=
  fun ⟨_, _, hne⟩ ↦ absurd rfl hne

/-- A refused preflight varies on nothing. -/
theorem sound_untouched_rejected :
    self.Sound preflight requestHeaders inner .untouched .rejected ↔
      ∀ name : HeaderName, name.isAccessControl → Multimap.getAll inner name = [] := by
  refine ⟨fun h name hname ↦ ?_, fun h ⟨name, hname, hne⟩ ↦ absurd (h name hname) hne⟩
  by_contra hne
  exact absurd (h ⟨name, hname, hne⟩).2 List.not_mem_nil

/-- The headers of an answer are headers of the protocol. -/
theorem isAccessControl_of_headerFor {allowOrigin value : HeaderValue} {name : HeaderName}
    (h : self.headerFor allowOrigin name = some value) : name.isAccessControl := by
  rw [headerFor] at h
  split at h
  · next hname => rw [hname]; decide
  · split at h
    · next hname => rw [hname]; decide
    · split at h
      · next hname => rw [hname]; decide
      · cases h

/-- An answer is told from the response of the inner service, unless that has everything set. -/
theorem alreadySet_iff {allowOrigin : HeaderValue} :
    self.AlreadySet preflight requestHeaders inner allowOrigin ↔
      ∀ name : HeaderName, name.isAccessControl →
        self.valuesOf preflight requestHeaders inner name .untouched =
          self.valuesOf preflight requestHeaders inner name (.answered allowOrigin) := by
  rcases preflight with - | -
  · simp only [AlreadySet, valuesOf, Bool.false_eq_true, if_false]
    refine ⟨fun h name _ ↦ ?_, fun h name value hvalue ↦ ?_⟩
    · rcases hvalue : self.headerFor allowOrigin name with - | value
      · rfl
      · exact h name value hvalue
    · have hname := h name (isAccessControl_of_headerFor hvalue)
      rwa [hvalue] at hname
  · simp only [AlreadySet, valuesOf, if_true]

/-- Whatever the inner response varies on, an answer does so, too. -/
theorem origin_mem_variesOn_answered {allowOrigin : HeaderValue}
    (h : HeaderName.origin ∈ FieldList.listed inner HeaderName.vary) :
    HeaderName.origin ∈ self.variesOn preflight inner (.answered allowOrigin) := by
  rw [variesOn]
  split
  · exact List.mem_cons_self
  · exact List.mem_append_left _ h

theorem sound_untouched_answered {allowOrigin : HeaderValue} :
    self.Sound preflight requestHeaders inner .untouched (.answered allowOrigin) ↔
      HeaderName.origin ∈ FieldList.listed inner HeaderName.vary ∨
        self.AlreadySet preflight requestHeaders inner allowOrigin := by
  constructor
  · intro h
    by_cases hset : self.AlreadySet preflight requestHeaders inner allowOrigin
    · exact .inr hset
    · rw [alreadySet_iff] at hset
      push Not at hset
      obtain ⟨name, hname, hne⟩ := hset
      exact .inl (h ⟨name, hname, hne⟩).1
  · rintro (horigin | hset) ⟨name, hname, hne⟩
    · exact ⟨horigin, origin_mem_variesOn_answered horigin⟩
    · exact absurd (alreadySet_iff.1 hset name hname) hne

theorem not_sound_rejected_answered {allowOrigin : HeaderValue} :
    ¬ self.Sound preflight requestHeaders inner .rejected (.answered allowOrigin) := by
  intro h
  have hne : self.valuesOf preflight requestHeaders inner HeaderName.accessControlAllowOrigin
      .rejected ≠ self.valuesOf preflight requestHeaders inner
        HeaderName.accessControlAllowOrigin (.answered allowOrigin) := by
    rw [CorsLayer.valuesOf_allowOrigin]
    exact nofun
  exact absurd (h ⟨_, by decide, hne⟩).1 List.not_mem_nil

/-- Two answers either vary on the origin or are the same wildcard. -/
theorem sound_answered_answered {allowOrigin₁ allowOrigin₂ : HeaderValue}
    (h : self.allowOrigins = .any → self.allowCredentials = false → allowOrigin₁ = allowOrigin₂) :
    self.Sound preflight requestHeaders inner (.answered allowOrigin₁)
      (.answered allowOrigin₂) := by
  by_cases hvaries : preflight ∨ self.variesOnOrigin
  · intro _
    have hmem : ∀ allowOrigin,
        HeaderName.origin ∈ self.variesOn preflight inner (.answered allowOrigin) := fun _ ↦ by
      rw [variesOn]
      split
      · exact List.mem_cons_self
      · next hpreflight =>
        rw [if_pos (hvaries.resolve_left hpreflight)]
        exact List.mem_append_right _ (List.mem_singleton_self _)
    exact ⟨hmem _, hmem _⟩
  · push Not at hvaries
    obtain ⟨-, hvaries⟩ := hvaries
    simp only [variesOnOrigin, Bool.not_eq_true, Bool.or_eq_false_iff, Bool.not_eq_false',
      decide_eq_true_eq] at hvaries
    rw [h hvaries.1 hvaries.2]
    exact sound_refl _

/-- The pairs of treatments one by one. -/
theorem sound_iff {t₁ t₂ : Treatment}
    (h : ∀ allowOrigin₁ allowOrigin₂, t₁ = .answered allowOrigin₁ → t₂ = .answered allowOrigin₂ →
      self.allowOrigins = .any → self.allowCredentials = false → allowOrigin₁ = allowOrigin₂) :
    self.Sound preflight requestHeaders inner t₁ t₂ ↔
      self.CacheSafe preflight requestHeaders inner t₁ t₂ := by
  rcases t₁ with - | - | allowOrigin₁
  · rcases t₂ with - | - | allowOrigin₂
    · exact iff_of_true (sound_refl _) trivial
    · exact sound_untouched_rejected
    · exact sound_untouched_answered
  · rcases t₂ with - | - | allowOrigin₂
    · exact sound_comm.trans sound_untouched_rejected
    · exact iff_of_true (sound_refl _) trivial
    · exact iff_of_false not_sound_rejected_answered id
  · rcases t₂ with - | - | allowOrigin₂
    · exact sound_comm.trans sound_untouched_answered
    · exact iff_of_false (not_sound_rejected_answered ∘ Sound.symm) id
    · exact iff_of_true (sound_answered_answered (h _ _ rfl rfl)) trivial

end CorsConfig

/-! ### Two requests from different origins -/

section Pair

omit [FromBytes B] [Extensions E]

variable {req₁ req₂ : Request H E B}

theorem isPreflight_eq (h : req₁.SameExcept [HeaderName.origin] req₂) :
    isPreflight req₁ = isPreflight req₂ := by
  rw [isPreflight, isPreflight, h.method, Multimap.containsKey, Multimap.containsKey,
    h.headers _ (by decide)]

theorem valuesOf_eq (h : req₁.SameExcept [HeaderName.origin] req₂) (config : CorsConfig)
    (preflight : Bool) (inner : H) (name : HeaderName) (treatment : Treatment) :
    config.valuesOf preflight req₁.headers inner name treatment =
      config.valuesOf preflight req₂.headers inner name treatment := by
  have hheaders : config.headersHeader req₁.headers = config.headersHeader req₂.headers := by
    rw [CorsConfig.headersHeader, CorsConfig.headersHeader, Multimap.get, Multimap.get,
      h.headers _ (by decide)]
  rcases treatment with - | - | allowOrigin
  · rfl
  · rfl
  · rw [CorsConfig.valuesOf, CorsConfig.valuesOf, CorsConfig.preflightHeaders, hheaders,
      ← CorsConfig.preflightHeaders]

/-- Without credentials the wildcard setting answers every origin alike. -/
theorem eq_wildcard_of_treatment {layer : CorsLayer} {req : Request H E B}
    {allowOrigin : HeaderValue} (h : layer.config.treatment req = .answered allowOrigin)
    (hany : layer.config.allowOrigins = .any) (hcred : layer.config.allowCredentials = false) :
    allowOrigin = HeaderValue.fromStatic "*" := by
  obtain ⟨origin, -, hresolved⟩ := CorsLayer.exists_resolvedOrigin h
  simp only [CorsConfig.resolvedOrigin, hany, hcred, Bool.false_eq_true, if_false] at hresolved
  exact (Option.some.inj hresolved).symm

end Pair

/-- **When two responses that differ in their origin alone can share a cache**: the layer treats
both requests alike; or the one that is not answered got what an answer would have set, or varies
on the origin by itself; or a preflight is refused and the other response allows nothing. -/
theorem varySound_iff (self : CorsLayer) (response : Response H E B) {req₁ req₂ : Request H E B}
    (h : req₁.SameExcept [HeaderName.origin] req₂) :
    VarySound (self.call (m := Id) (fun _ ↦ pure response) req₁).run
        (self.call (m := Id) (fun _ ↦ pure response) req₂).run ↔
      self.config.CacheSafe (isPreflight req₁) req₁.headers response.headers
        (self.config.treatment req₁) (self.config.treatment req₂) := by
  have hwild : ∀ allowOrigin₁ allowOrigin₂,
      self.config.treatment req₁ = .answered allowOrigin₁ →
      self.config.treatment req₂ = .answered allowOrigin₂ →
      self.config.allowOrigins = .any → self.config.allowCredentials = false →
        allowOrigin₁ = allowOrigin₂ := fun allowOrigin₁ allowOrigin₂ h₁ h₂ hany hcred ↦
    (eq_wildcard_of_treatment h₁ hany hcred).trans (eq_wildcard_of_treatment h₂ hany hcred).symm
  rw [← CorsConfig.sound_iff hwild, VarySound, CorsConfig.Sound, CorsLayer.listed_vary_call,
    CorsLayer.listed_vary_call, ← isPreflight_eq h]
  refine imp_congr_left (exists_congr fun name ↦ and_congr_right fun hname ↦ ?_)
  have hne := HeaderName.ne_vary_of_isAccessControl hname
  rw [CorsLayer.getAll_call _ _ _ hne, CorsLayer.getAll_call _ _ _ hne, ← isPreflight_eq h,
    ← valuesOf_eq h]
  exact Iff.rfl

theorem sameExcept_requestFrom (origin₁ origin₂ : HeaderValue) :
    (CorsLayer.requestFrom origin₁ : Request H E B).SameExcept [HeaderName.origin]
      (CorsLayer.requestFrom origin₂) where
  method := rfl
  uri := rfl
  headers name hname := by
    have hne : name ≠ HeaderName.origin := fun h ↦ hname (h ▸ List.mem_singleton_self _)
    show Multimap.getAll (Multimap.insert _ _ _) _ = Multimap.getAll (Multimap.insert _ _ _) _
    rw [Multimap.getAll_insert, Multimap.getAll_insert, if_neg hne, if_neg hne]
  httpExtensions := rfl
  body := rfl
  version := rfl
  extensions := rfl

/-- The wildcard may be given to any origin. -/
theorem varySound_permissive :
    let example₁ := CorsLayer.requestFrom (HeaderValue.fromStatic "https://a.example")
    let example₂ := CorsLayer.requestFrom (HeaderValue.fromStatic "https://b.example")
    let response : Response (AssocList HeaderName HeaderValue) (Option Unit)
      (Body (AssocList HeaderName HeaderValue)) := CorsLayer.bareResponse
    VarySound (CorsLayer.permissive.call (m := Id) (fun _ ↦ pure response) example₁).run
      (CorsLayer.permissive.call (m := Id) (fun _ ↦ pure response) example₂).run :=
  (varySound_iff CorsLayer.permissive _ (sameExcept_requestFrom _ _)).2 trivial

/-- An allowed origin may be given the response to one that is not allowed: that one does not say
that it depends on the origin. -/
theorem not_varySound :
    ∃ layer, CorsLayer.build .new
        [.allowOrigin [HeaderValue.fromStatic "https://a.example"]] = some layer ∧
      let allowed := CorsLayer.requestFrom (HeaderValue.fromStatic "https://a.example")
      let other := CorsLayer.requestFrom (HeaderValue.fromStatic "https://b.example")
      let response : Response (AssocList HeaderName HeaderValue) (Option Unit)
        (Body (AssocList HeaderName HeaderValue)) := CorsLayer.bareResponse
      allowed.SameExcept [HeaderName.origin] other ∧
        ¬ VarySound (layer.call (m := Id) (fun _ ↦ pure response) allowed).run
          (layer.call (m := Id) (fun _ ↦ pure response) other).run := by
  refine ⟨_, rfl, sameExcept_requestFrom _ _, fun h ↦ ?_⟩
  have hdiffer := h ⟨HeaderName.accessControlAllowOrigin, by decide, by decide⟩
  exact absurd hdiffer.2 (by decide)
