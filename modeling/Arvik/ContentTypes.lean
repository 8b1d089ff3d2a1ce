import Arvik.Core.Json
import Arvik.Extract.Buffering
import Arvik.Router.Router
import Arvik.Static.Responses

/-!
# The content type of a built response

`header` and the calls that end a `ResponseBuilder` write to the same header map, and both append.
So a response that is built with an explicit content type, and then ended by a call that sets one,
carries two; unless an error was deferred, or its value did not serialize, since then the response
is a different one. `length_contentTypes_build` says this for every sequence of calls.

The calls are data here, so that a sequence of them is a list and its result a fold. Two facts about
a fold are enough: a failure lasts, whatever is called after it, and as long as there is none, a
content type is there exactly if some call named it. What ends a builder is a second type of calls,
with one case for each method of the source that does.

The framework builds its own plain 404s and its 422 in exactly that way, so it is among its own
examples.
-/

/-- A call on a response builder. -/
inductive BuilderCall : Type 1
  | status (code : StatusCode)
  | header {K V : Type} [TryInto K HeaderName] [TryInto V HeaderValue] (key : K) (value : V)

namespace BuilderCall

/-- The name or the value does not convert. -/
def Fails : BuilderCall → Prop
  | status _ => False
  | @header _ _ _ _ key value =>
    (TryInto.tryInto key : Option HeaderName) = none ∨
      (TryInto.tryInto value : Option HeaderValue) = none

/-- The call names the content type. -/
def SetsContentType : BuilderCall → Prop
  | status _ => False
  | @header _ _ _ _ key _ => (TryInto.tryInto key : Option HeaderName) = some .contentType

end BuilderCall

/-- A call that ends a response builder. -/
inductive BuilderEnd : Type 1
  | text (s : Str)
  | textStatic (s : Str)
  | html (s : Str)
  | json {T : Type} [Serialize T] (data : T)

/-- The value to be sent does not serialize. -/
def BuilderEnd.Fails : BuilderEnd → Prop
  | text _ | textStatic _ | html _ => False
  | @json _ _ data => ∃ err, Serialize.serialize data = .error err

namespace ResponseBuilder

variable {H E B : Type} [Multimap H HeaderName HeaderValue] [Extensions E] [FromBytes B]

/-- One call. -/
def apply (self : ResponseBuilder H E) : BuilderCall → ResponseBuilder H E
  | .status code => self.status code
  | @BuilderCall.header _ _ _ _ key value => self.header key value

/-- The call that ends the builder. -/
def finish (self : ResponseBuilder H E) : BuilderEnd → Response H E B
  | .text s => self.text s
  | .textStatic s => self.textStatic s
  | .html s => self.html s
  | @BuilderEnd.json _ _ data => self.json data

/-- The response built by a sequence of calls. -/
def build (calls : List BuilderCall) (ending : BuilderEnd) : Response H E B :=
  (calls.foldl apply (new : ResponseBuilder H E)).finish ending

/-- The content types of a response. -/
def contentTypes (response : Response H E B) : List HeaderValue :=
  Multimap.getAll response.headers HeaderName.contentType

/-- Every response has one content type: those that are built, and the framework's own. Two of them
leave it to the recipient which one counts. -/
structure SingleContentType (H E B : Type) [Multimap H HeaderName HeaderValue] [Extensions E]
    [FromBytes B] : Prop where
  built : ∀ calls ending, (contentTypes (build calls ending : Response H E B)).length = 1
  routerNotFound : (contentTypes (Router.notFound : Response H E B)).length = 1
  staticNotFound : (contentTypes (Static.notFound : Response H E B)).length = 1
  validation : ∀ problem,
    (contentTypes ((ValidationRejection.validation problem).intoResponse :
      Response H E (Body H))).length = 1

/-! ### One call -/

omit [Extensions E] in
theorem inner_apply_of_none {self : ResponseBuilder H E} (h : self.inner = none)
    (call : BuilderCall) : (self.apply call).inner = none := by
  rcases call with code | @⟨_, _, _, _, key, value⟩
  · show self.inner.map _ = none
    rw [h, Option.map_none]
  · show self.inner.bind _ = none
    rw [h, Option.bind_none]

omit [Extensions E] in
theorem inner_apply_of_fails (self : ResponseBuilder H E) {call : BuilderCall} (h : call.Fails) :
    (self.apply call).inner = none := by
  rcases call with code | @⟨_, _, _, _, key, value⟩
  · exact h.elim
  · refine Option.bind_eq_none_iff.2 fun head _ ↦ ?_
    rcases h with hname | hvalue
    · rw [hname, Option.bind_none]
    · rw [hvalue]
      exact Option.bind_eq_none_iff.2 fun name _ ↦ rfl

omit [Extensions E] in
/-- A call that does not fail adds a content type exactly if it names it. -/
theorem exists_inner_apply {self : ResponseBuilder H E} {head : ResponseHead H E}
    (hinner : self.inner = some head) {call : BuilderCall} (h : ¬ call.Fails) :
    ∃ head', (self.apply call).inner = some head' ∧
      (Multimap.getAll head'.headers HeaderName.contentType = [] ↔
        Multimap.getAll head.headers HeaderName.contentType = [] ∧ ¬ call.SetsContentType) := by
  rcases call with code | @⟨_, _, _, _, key, value⟩
  · refine ⟨{ head with status := code }, ?_, (and_iff_left not_false).symm⟩
    show self.inner.map _ = _
    rw [hinner, Option.map_some]
  · obtain ⟨hname, hvalue⟩ := not_or.1 h
    obtain ⟨name, hname⟩ := Option.ne_none_iff_exists'.1 hname
    obtain ⟨val, hvalue⟩ := Option.ne_none_iff_exists'.1 hvalue
    refine ⟨{ head with headers := Multimap.append head.headers name val }, ?_, ?_⟩
    · show self.inner.bind _ = _
      rw [hinner, Option.bind_some, hname, Option.bind_some, hvalue, Option.map_some]
    · show Multimap.getAll (Multimap.append head.headers name val) _ = [] ↔
        _ ∧ ¬ (TryInto.tryInto key : Option HeaderName) = _
      rw [Multimap.getAll_append, hname, Option.some.injEq]
      rcases eq_or_ne name HeaderName.contentType with rfl | hother
      · rw [if_pos rfl]
        exact iff_of_false (List.append_ne_nil_of_right_ne_nil _ (List.cons_ne_nil _ _)) fun hand ↦
          hand.2 rfl
      · rw [if_neg hother.symm]
        exact (and_iff_left hother).symm

/-! ### A sequence of calls -/

omit [Extensions E] in
/-- A failure lasts. -/
theorem inner_foldl_of_none {self : ResponseBuilder H E} (h : self.inner = none)
    (calls : List BuilderCall) : (calls.foldl apply self).inner = none := by
  induction calls generalizing self with
  | nil => exact h
  | cons call calls ih => exact ih (inner_apply_of_none h call)

omit [Extensions E] in
theorem inner_foldl_of_fails (self : ResponseBuilder H E) {calls : List BuilderCall}
    {call : BuilderCall} (hcall : call ∈ calls) (h : call.Fails) :
    (calls.foldl apply self).inner = none := by
  obtain ⟨before, after, rfl⟩ := List.append_of_mem hcall
  rw [List.foldl_append, List.foldl_cons]
  exact inner_foldl_of_none (inner_apply_of_fails _ h) after

omit [Extensions E] in
/-- Without a failure there is no content type yet exactly if no call named it. -/
theorem exists_inner_foldl {self : ResponseBuilder H E} {head : ResponseHead H E}
    (hinner : self.inner = some head) {calls : List BuilderCall}
    (h : ∀ call ∈ calls, ¬ call.Fails) :
    ∃ head', (calls.foldl apply self).inner = some head' ∧
      (Multimap.getAll head'.headers HeaderName.contentType = [] ↔
        Multimap.getAll head.headers HeaderName.contentType = [] ∧
          ∀ call ∈ calls, ¬ call.SetsContentType) := by
  induction calls generalizing self head with
  | nil => exact ⟨head, hinner, (and_iff_left fun _ hmem ↦ absurd hmem List.not_mem_nil).symm⟩
  | cons call calls ih =>
    obtain ⟨hcall, hcalls⟩ := List.forall_mem_cons.1 h
    obtain ⟨head', hinner', hiff⟩ := exists_inner_apply hinner hcall
    obtain ⟨head'', hinner'', hiff'⟩ := ih hinner' hcalls
    refine ⟨head'', hinner'', ?_⟩
    rw [hiff', hiff, and_assoc, List.forall_mem_cons]

/-! ### The call at the end -/

/-- A content type of one's own, and the body: after a failure the response is another one. -/
theorem length_contentTypes_body (self : ResponseBuilder H E) (value : HeaderValue) (b : B) :
    (contentTypes ((self.header HeaderName.contentType value).body b)).length = 1 ↔
      ∀ head, self.inner = some head →
        Multimap.getAll head.headers HeaderName.contentType = [] := by
  obtain ⟨- | head⟩ := self
  · refine iff_of_true ?_ fun head h ↦ by cases h
    show (Multimap.getAll (Multimap.append (Multimap.empty : H) _ _) _).length = 1
    rw [Multimap.getAll_append, if_pos rfl, Multimap.getAll_empty]
    rfl
  · show (Multimap.getAll (Multimap.append head.headers _ _) _).length = 1 ↔ _
    rw [Multimap.getAll_append, if_pos rfl, List.length_append, List.length_singleton,
      Nat.add_eq_right, List.length_eq_zero_iff]
    exact ⟨fun h head' hhead ↦ Option.some.inj hhead ▸ h, fun h ↦ h head rfl⟩

/-- A builder is ended with one content type if it had none, or what it is ended with fails. -/
theorem length_contentTypes_finish (self : ResponseBuilder H E) (ending : BuilderEnd) :
    (contentTypes (self.finish ending : Response H E B)).length = 1 ↔
      ending.Fails ∨ ∀ head, self.inner = some head →
        Multimap.getAll head.headers HeaderName.contentType = [] := by
  rcases ending with s | s | s | @⟨T, _, data⟩
  · rw [BuilderEnd.Fails, false_or]
    exact length_contentTypes_body self _ _
  · rw [BuilderEnd.Fails, false_or]
    exact length_contentTypes_body self _ _
  · rw [BuilderEnd.Fails, false_or]
    exact length_contentTypes_body self _ _
  · rw [BuilderEnd.Fails, finish, json, toWriter]
    rcases hdata : Serialize.serialize data with err | value
    · refine iff_of_true ?_ (.inl ⟨err, rfl⟩)
      refine (length_contentTypes_body _ _ _).2 fun head hhead ↦ ?_
      rw [← Option.some.inj hhead]
      exact Multimap.getAll_empty _
    · have hfails : ¬ ∃ err, (.ok value : Except Str JsonText.Value) = .error err := by simp
      rw [or_iff_right hfails]
      exact length_contentTypes_body self _ _

/-- **When a built response has one content type**: a header did not convert, or the value did not
serialize, or no call named the content type. -/
theorem length_contentTypes_build (calls : List BuilderCall) (ending : BuilderEnd) :
    (contentTypes (build calls ending : Response H E B)).length = 1 ↔
      (∃ call ∈ calls, call.Fails) ∨ ending.Fails ∨ ∀ call ∈ calls, ¬ call.SetsContentType := by
  rw [build, length_contentTypes_finish, or_left_comm]
  refine or_congr_right ?_
  by_cases hfails : ∃ call ∈ calls, call.Fails
  · obtain ⟨call, hcall, hfails⟩ := hfails
    refine iff_of_true (fun head hhead ↦ ?_) (.inl ⟨call, hcall, hfails⟩)
    rw [inner_foldl_of_fails _ hcall hfails] at hhead
    cases hhead
  · have hnone : ∀ call ∈ calls, ¬ call.Fails := fun call hcall h ↦ hfails ⟨call, hcall, h⟩
    obtain ⟨head, hinner, hiff⟩ :=
      exists_inner_foldl (rfl : (new : ResponseBuilder H E).inner = some _) hnone
    rw [or_iff_right hfails, hinner]
    refine Iff.trans ⟨fun h ↦ h head rfl, fun h head' hhead ↦ Option.some.inj hhead ▸ h⟩ ?_
    rw [hiff]
    exact and_iff_right (Multimap.getAll_empty _)

/-! ### The responses of the framework -/

/-- A content type named in a call and the one of the end. -/
theorem contentTypes_ofPairs_two (code : StatusCode) (value value' : HeaderValue) (b : B) :
    contentTypes ((ofPairs code [(HeaderName.contentType, value),
      (HeaderName.contentType, value')] : ResponseBuilder H E).body b) = [value, value'] := by
  rw [contentTypes, getAll_body_ofPairs]
  simp [Multimap.valuesFor_cons]

/-- **The content types of built responses.** For a sequence of calls there is one exactly if a
header did not convert, or the value did not serialize, or no call named the content type. The 404s
and the 422 of the framework have two. -/
theorem contentTypes_built (H E B : Type) [Multimap H HeaderName HeaderValue] [Extensions E]
    [FromBytes B] :
    (∀ calls ending, (contentTypes (build calls ending : Response H E B)).length = 1 ↔
      (∃ call ∈ calls, call.Fails) ∨ ending.Fails ∨ ∀ call ∈ calls, ¬ call.SetsContentType) ∧
    (contentTypes (Router.notFound : Response H E B)).length = 2 ∧
    (contentTypes (Static.notFound : Response H E B)).length = 2 ∧
    ∀ problem, (contentTypes ((ValidationRejection.validation problem).intoResponse :
      Response H E (Body H))).length = 2 :=
  ⟨length_contentTypes_build,
    congrArg List.length (contentTypes_ofPairs_two .notFound _ _ _),
    congrArg List.length (contentTypes_ofPairs_two .notFound _ _ _),
    fun _ ↦ congrArg List.length (contentTypes_ofPairs_two .unprocessableEntity _ _ _)⟩

/-- The calls the 404 of the router is built with give it two content types. -/
theorem not_singleContentType :
    ¬ SingleContentType (AssocList HeaderName HeaderValue) (Option Unit) (Body Unit) := by
  intro h
  have hone := h.built [.status .notFound, .header HeaderName.contentType HeaderValue.textPlainUtf8]
    (.textStatic "Not Found".toList)
  exact absurd hone (by decide)

end ResponseBuilder
