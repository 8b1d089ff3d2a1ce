import Arvik.Router.MethodUnion

/-!
# The `Allow` header of a method router

A method router without a handler for the method of a request answers 405 and lists the methods it
has handlers for. What it lists are the methods of the filters; what it dispatches are these and
`HEAD`, which a handler for `GET` takes when there is none for `HEAD`. So the list is short of
`HEAD` for a router with a handler for `GET` but none for `HEAD` (`allow_iff`).

The list is a text, and whether a text lists a method is a matter of splitting it at its commas. So
the header is compared with the names of the filters once (`listed_methodNotAllowed`), where it is
used that the names are distinct and have no comma in them. What is dispatched comes from the
soundness of built routers (`Sound.handlerFor_isSome_iff`): both are then statements about the same
list of filters, method by method.
-/

namespace MethodRouter

variable {H E B : Type} {m : Type → Type} {Hd L : Type}

/-! ### The methods listed -/

/-- The methods with a bit of their own in filters. -/
def standardMethods : List Method :=
  [.get, .post, .put, .delete, .patch, .head, .options, .trace]

theorem asStr_injOn : ∀ a ∈ standardMethods, ∀ b ∈ standardMethods, a.asStr = b.asStr → a = b := by
  decide

theorem buildAllowHeader_eq (filter : MethodFilter) :
    buildAllowHeader filter = ", ".toList.intercalate
      ((standardMethods.filter fun method ↦ filter.contains (.fromMethod method)).map
        Method.asStr) := by
  have hpairs : buildAllowHeader filter = ", ".toList.intercalate
      (((standardMethods.map fun method ↦ (MethodFilter.fromMethod method, method.asStr)).filter
        fun p ↦ filter.contains p.1).map Prod.snd) := rfl
  rw [hpairs, List.filter_map, List.map_map]
  rfl

section

variable [Multimap H HeaderName HeaderValue]

/-- The methods the `Allow` header of a message lists. -/
def listed (headers : H) : List Str :=
  ((Multimap.getAll headers HeaderName.allow).filterMap HeaderValue.toStr).flatMap Text.listItems

/-- The header lists the standard methods that are dispatched to a handler, each once. Extension
methods have one bit in common and no name, so they cannot be listed. -/
structure AllowsExactly (router : MethodRouter Hd L) (headers : H) : Prop where
  nodup : (listed headers).Nodup
  mem_iff : ∀ name, name ∈ listed headers ↔
    ∃ method ∈ standardMethods, name = method.asStr ∧ (router.handlerFor method).isSome

end

variable [Multimap H HeaderName HeaderValue] [Extensions E] [FromBytes B]

theorem name_of_mem {name : Str} (h : name ∈ standardMethods.map Method.asStr) :
    name ≠ [] ∧ ',' ∉ name ∧ (∀ c ∈ name, Text.isWhitespace c = false) ∧
      ∀ c ∈ name, 32 ≤ c.toNat ∧ c.toNat < 127 := by
  have hall : ∀ name ∈ standardMethods.map Method.asStr, name ≠ [] ∧ ',' ∉ name ∧
      name.all fun c ↦ !Text.isWhitespace c ∧ 32 ≤ c.toNat ∧ c.toNat < 127 := by
    decide
  obtain ⟨hne, hcomma, hchars⟩ := hall name h
  have hchar (c : Char) (hc : c ∈ name) :=
    of_decide_eq_true (List.all_eq_true.1 hchars c hc)
  exact ⟨hne, hcomma, fun c hc ↦ by simpa using (hchar c hc).1, fun c hc ↦ (hchar c hc).2⟩

theorem names_subset (self : MethodRouter Hd L) :
    (standardMethods.filter self.declares).map Method.asStr ⊆ standardMethods.map Method.asStr :=
  (List.filter_sublist.map _).subset

/-- The refusal, with the list of methods as a header value. -/
theorem exists_methodNotAllowed_eq (self : MethodRouter Hd L) :
    ∃ value, value.toStr = some (buildAllowHeader self.allowMethods) ∧
      (self.methodNotAllowed : Response H E B) =
        (ResponseBuilder.ofPairs .methodNotAllowed
          [(HeaderName.allow, value), (HeaderName.contentType, HeaderValue.textPlainUtf8)]).body
          (FromBytes.fromBytes (Text.utf8 "Method Not Allowed".toList)) := by
  have hvisible : ∀ c ∈ buildAllowHeader self.allowMethods, 32 ≤ c.toNat ∧ c.toNat < 127 := by
    intro c hc
    rw [buildAllowHeader_eq] at hc
    rcases Text.mem_intercalate hc with hsep | ⟨name, hname, hc⟩
    · rcases List.mem_pair.1 hsep with rfl | rfl <;> decide
    · exact (name_of_mem (self.names_subset hname)).2.2.2 c hc
  obtain ⟨value, hvalue, htext⟩ := HeaderValue.fromStr_visible hvisible
  refine ⟨value, htext, ?_⟩
  rw [methodNotAllowed, ResponseBuilder.status_new,
    ResponseBuilder.header_ofPairs_of_fromStr _ hvalue, ResponseBuilder.text,
    ResponseBuilder.header_ofPairs]
  rfl

/-- The refusal lists the methods of the filters. -/
theorem listed_methodNotAllowed (self : MethodRouter Hd L) :
    listed (self.methodNotAllowed : Response H E B).headers =
      (standardMethods.filter self.declares).map Method.asStr := by
  obtain ⟨value, htext, hresponse⟩ := exists_methodNotAllowed_eq (H := H) (E := E) (B := B) self
  have hitems : Text.listItems (buildAllowHeader self.allowMethods) =
      (standardMethods.filter self.declares).map Method.asStr := by
    rw [buildAllowHeader_eq]
    exact Text.listItems_intercalate fun name hname ↦
      let ⟨hne, hcomma, hword, _⟩ := name_of_mem (self.names_subset hname)
      ⟨hne, hcomma, hword⟩
  have hvalues : Multimap.valuesFor HeaderName.allow
      [(HeaderName.allow, value), (HeaderName.contentType, HeaderValue.textPlainUtf8)] =
      [value] := rfl
  rw [listed, hresponse, ResponseBuilder.getAll_body_ofPairs, hvalues,
    List.filterMap_cons_some htext, List.filterMap_nil, List.flatMap_singleton, hitems]

/-! ### Exactness -/

/-- A router answers `HEAD` by a handler for it, or by one for `GET`. -/
theorem Sound.handlerFor_isSome_iff {self : MethodRouter Hd L} (h : self.Sound) (method : Method) :
    (self.handlerFor method).isSome ↔
      self.declares method ∨ method = .head ∧ self.declares .get := by
  constructor
  · intro hsome
    by_contra hnot
    obtain ⟨hdeclares, hhead⟩ := not_or.1 hnot
    rw [h.handlerFor_eq_none (Bool.eq_false_iff.2 hdeclares) hhead] at hsome
    cases hsome
  · intro hor
    by_cases hdeclares : self.declares method
    · exact Option.isSome_iff_exists.2 (h.exists_handlerFor hdeclares)
    · obtain ⟨rfl, hget⟩ := hor.resolve_left hdeclares
      have hnot : self.allowMethods.contains .head = false := Bool.eq_false_iff.2 hdeclares
      rw [h.declares] at hget
      obtain ⟨p, hp, hget⟩ := List.any_eq_true.1 hget
      have htakes : self.takes .head p.1 := by
        rw [takes, hnot]
        exact Bool.or_eq_true_iff.2 (.inr hget)
      rw [handlerFor, Option.isSome_map]
      exact List.find?_isSome.2 ⟨p, hp, htakes⟩

/-- The list is exact if `HEAD` has a handler of its own, or `GET` has none. -/
theorem Sound.allowsExactly_iff {self : MethodRouter Hd L} (h : self.Sound) :
    self.AllowsExactly (self.methodNotAllowed : Response H E B).headers ↔
      (self.declares .get → self.declares .head) := by
  have hlisted := listed_methodNotAllowed (H := H) (E := E) (B := B) self
  have hmem : ∀ name, name ∈ listed (self.methodNotAllowed : Response H E B).headers ↔
      ∃ method ∈ standardMethods, name = method.asStr ∧ self.declares method := by
    intro name
    rw [hlisted, List.mem_map]
    simp only [List.mem_filter, and_assoc, eq_comm (a := name)]
    exact exists_congr fun method ↦ and_congr_right fun _ ↦ and_comm
  constructor
  · intro hexact hget
    have hhead : Method.asStr .head ∈ listed (self.methodNotAllowed : Response H E B).headers :=
      (hexact.mem_iff _).2 ⟨.head, by decide, rfl, (h.handlerFor_isSome_iff .head).2
        (.inr ⟨rfl, hget⟩)⟩
    obtain ⟨method, hmethod, hname, hdeclares⟩ := (hmem _).1 hhead
    obtain rfl := asStr_injOn _ (by decide) _ hmethod hname
    exact hdeclares
  · intro hhead
    refine ⟨?_, fun name ↦ (hmem name).trans ?_⟩
    · have hnodup : (standardMethods.map Method.asStr).Nodup := by decide
      rw [hlisted]
      exact hnodup.sublist (List.filter_sublist.map _)
    · refine exists_congr fun method ↦ and_congr_right fun _ ↦ and_congr_right fun _ ↦ ?_
      rw [h.handlerFor_isSome_iff]
      refine ⟨.inl, fun hor ↦ hor.elim id ?_⟩
      rintro ⟨rfl, hget⟩
      exact hhead hget

/-- **When the `Allow` header is exact.** A request without a handler is answered 405; the header
lists exactly the methods that are dispatched if and only if the router has a handler for `HEAD` or
none for `GET`. -/
theorem allow_iff [Monad m] {self : MethodRouter Hd L} (hself : self.Built)
    (rt : Runtime H E B m Hd L) {req : Request H E B} (hreq : self.handlerFor req.method = none) :
    ∃ response, self.call rt req = pure response ∧ response.status = .methodNotAllowed ∧
      (self.AllowsExactly response.headers ↔ (self.declares .get → self.declares .head)) := by
  refine ⟨self.methodNotAllowed, ?_, ?_, hself.sound.allowsExactly_iff⟩
  · rw [hself.sound.fresh.call_eq rt req, hreq]
  · obtain ⟨value, -, hresponse⟩ := exists_methodNotAllowed_eq (H := H) (E := E) (B := B) self
    rw [hresponse]
    rfl

/-! ### A route with a handler for `GET` -/

section Get

private abbrev AllowFields := AssocList HeaderName HeaderValue

/-- Handlers answer with a status, without layers. -/
private def answering :
    Runtime AllowFields (Option Unit) (Body AllowFields) Id StatusCode Unit where
  handle code _ := code.intoResponse
  layer _ service := service
  getOrInit _ names := names

private def getOnly : MethodRouter StatusCode Unit :=
  new.on .get .ok

private def request (method : Method) : Request AllowFields (Option Unit) (Body AllowFields) :=
  .new ⟨method, { path := ['/'] }, Multimap.empty, Extensions.empty, Body.empty, .http11⟩

/-- A route with a handler for each of the two lists both. -/
theorem allow_getAndHead : ∃ response,
    (getOnly.on .head .noContent).call answering (request .post) = response ∧
      response.status = .methodNotAllowed ∧
      (getOnly.on .head .noContent).AllowsExactly response.headers := by
  have hbuilt : (getOnly.on .head .noContent).Built :=
    .on .head StatusCode.noContent (.on .get StatusCode.ok .new)
  have hpost : (getOnly.on .head .noContent).handlerFor (request .post).method = none := rfl
  obtain ⟨response, hcall, hstatus, hiff⟩ := allow_iff hbuilt answering hpost
  exact ⟨response, hcall, hstatus, hiff.2 fun _ ↦ by decide⟩

/-- A route with a handler for `GET` refuses `POST`, and does not list `HEAD`, which it answers. -/
theorem not_allowsExactly_getOnly :
    (getOnly.call answering (request .post)).status = .methodNotAllowed ∧
      (getOnly.call answering (request .head)).status = .ok ∧
      ¬getOnly.AllowsExactly (getOnly.call answering (request .post)).headers := by
  refine ⟨by decide, by decide, fun hexact ↦ ?_⟩
  have hhead := (hexact.mem_iff "HEAD".toList).2 ⟨.head, by decide, rfl, by decide⟩
  exact absurd hhead (by decide)

end Get

end MethodRouter
