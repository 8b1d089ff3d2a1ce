import Arvik.Core.Http

/-!
# Building responses

The response builder defers the errors of its arguments: once a header name or value failed to
convert, the builder stays in the failed state and `body` answers a plain 500 instead. So a chain of
calls cannot fail in the middle, and what it comes to depends on all of them.

Headers are appended, never replaced. `ofPairs` is the builder after some headers that all
converted, and the lemmas about it take a chain of calls to the list of what it appended;
`getAll_body_ofPairs` then reads a header off that list. The responses of the framework are all
analysed in this way, without looking at the multimap again.
-/

variable {H E B : Type} [Multimap H HeaderName HeaderValue] [Extensions E] [FromBytes B]

/-- The status, headers and extensions of a response under construction. -/
structure ResponseHead (H E : Type) where
  status : StatusCode
  headers : H
  extensions : E

/-- A response builder; `none` once a deferred error occurred. -/
structure ResponseBuilder (H E : Type) where
  inner : Option (ResponseHead H E)

/-- The 500 used when a response could not be constructed. -/
def internalErrorResponse : Response H E B where
  status := .internalServerError
  headers := Multimap.append Multimap.empty HeaderName.contentType
    HeaderValue.textPlainUtf8
  extensions := Extensions.empty
  body := FromBytes.fromBytes (Text.utf8 "Internal Server Error".toList)

namespace ResponseBuilder

/-- A builder with status 200. -/
def new : ResponseBuilder H E where
  inner := some ⟨.ok, Multimap.empty, Extensions.empty⟩

omit [Multimap H HeaderName HeaderValue] [Extensions E] in
/-- Set the status. -/
def status (self : ResponseBuilder H E) (code : StatusCode) : ResponseBuilder H E where
  inner := self.inner.map fun head ↦ { head with status := code }

omit [Extensions E] in
/-- Append a header, converting the name and the value. -/
def header {K V : Type} [TryInto K HeaderName] [TryInto V HeaderValue]
    (self : ResponseBuilder H E) (key : K) (value : V) : ResponseBuilder H E where
  inner := self.inner.bind fun head ↦
    (TryInto.tryInto key : Option HeaderName).bind fun name ↦
      (TryInto.tryInto value : Option HeaderValue).map fun val ↦
        { head with headers := Multimap.append head.headers name val }

/-- Build the response with the given body. -/
def body (self : ResponseBuilder H E) (b : B) : Response H E B :=
  match self.inner with
  | some head => ⟨head.status, head.headers, head.extensions, b⟩
  | none => internalErrorResponse

/-- Build a plain text response. -/
def text (self : ResponseBuilder H E) (s : Str) : Response H E B :=
  (self.header HeaderName.contentType HeaderValue.textPlainUtf8).body
    (FromBytes.fromBytes (Text.utf8 s))

/-- Build a response with an empty body. -/
def empty (self : ResponseBuilder H E) : Response H E B :=
  self.body FromBytes.empty

/-- Append a header if there is a value for it. -/
def headerIf {V : Type} [TryInto V HeaderValue] (self : ResponseBuilder H E) (key : HeaderName)
    (value : Option V) : ResponseBuilder H E :=
  match value with
  | some v => self.header key v
  | none => self

/-! ### Builders without a deferred error -/

/-- The builder with a status and headers, nothing having failed. -/
def ofPairs (code : StatusCode) (items : List (HeaderName × HeaderValue)) :
    ResponseBuilder H E where
  inner := some ⟨code, items.foldl (fun m p ↦ Multimap.append m p.1 p.2) Multimap.empty,
    Extensions.empty⟩

omit [FromBytes B]

variable {code : StatusCode} {items : List (HeaderName × HeaderValue)}

theorem status_new (code : StatusCode) :
    (new : ResponseBuilder H E).status code = ofPairs code [] :=
  rfl

@[simp]
theorem header_ofPairs (key : HeaderName) (value : HeaderValue) :
    (ofPairs code items : ResponseBuilder H E).header key value =
      ofPairs code (items ++ [(key, value)]) := by
  rw [ofPairs, ofPairs, List.foldl_append]
  rfl

/-- A text that is a valid value is appended as that value. -/
theorem header_ofPairs_of_fromStr {s : Str} {value : HeaderValue} (key : HeaderName)
    (h : HeaderValue.fromStr s = some value) :
    (ofPairs code items : ResponseBuilder H E).header key s =
      ofPairs code (items ++ [(key, value)]) := by
  rw [← header_ofPairs]
  show ResponseBuilder.mk (Option.map _ (HeaderValue.fromStr s)) = _
  rw [h]
  rfl

@[simp]
theorem headerIf_ofPairs (key : HeaderName) (value : Option HeaderValue) :
    (ofPairs code items : ResponseBuilder H E).headerIf key value =
      ofPairs code (items ++ (value.map fun v ↦ (key, v)).toList) := by
  rcases value with - | v
  · exact (congrArg (ofPairs code) (List.append_nil items)).symm
  · exact header_ofPairs key v

/-- A visible text, if there is one, is appended as some value. -/
theorem headerIf_ofPairs_of_visible (key : HeaderName) {s : Option Str}
    (h : ∀ t ∈ s, ∀ c ∈ t, 32 ≤ c.toNat ∧ c.toNat < 127) :
    ∃ value : Option HeaderValue, (ofPairs code items : ResponseBuilder H E).headerIf key s =
      ofPairs code (items ++ (value.map fun v ↦ (key, v)).toList) := by
  rcases s with - | t
  · exact ⟨none, (congrArg (ofPairs code) (List.append_nil items)).symm⟩
  · obtain ⟨v, hv, -⟩ := HeaderValue.fromStr_visible (h t rfl)
    exact ⟨some v, header_ofPairs_of_fromStr key hv⟩

/-- The values a built response has for a name are those listed. -/
theorem getAll_body_ofPairs [FromBytes B] (b : B) (key : HeaderName) :
    Multimap.getAll ((ofPairs code items : ResponseBuilder H E).body b).headers key =
      Multimap.valuesFor key items := by
  show Multimap.getAll (items.foldl _ (Multimap.empty : H)) key = _
  rw [Multimap.getAll_foldl_append, Multimap.getAll_empty, List.nil_append]

end ResponseBuilder

/-- A status alone is a response with an empty body. -/
def StatusCode.intoResponse (code : StatusCode) : Response H E B :=
  (ResponseBuilder.new.status code).empty

/-- A constant text is a plain text response; the pair with a status replaces the 200. -/
def textResponse (code : StatusCode) (s : Str) : Response H E B :=
  { (ResponseBuilder.new.text s : Response H E B) with status := code }
