import Arvik.Core.Http

/-!
# Response parts

A value in front of a response in a tuple contributes headers: it is asked to fill an empty
`ResponseParts`, and the accumulated headers are then applied to the response (`applyParts`).

Filling appends (`AppendHeaders`, `Preload`), or, for a header map, walks the consuming iterator of
the map. Applying walks the iterator of the accumulated map once more. Both walks skip the items
that carry no name, so what arrives at the response is read off by `getAll_applyTo`: for each name,
the **first** accumulated value.

A consuming iterator names a key with its first value only; the values after it come without a name.
That is a property of the map and stated in its laws, so the loss is derived here for any map, and
does not depend on how one is implemented. A parts value is a class with an error that is a response
itself, as in the source, and the result about applying one is stated for every instance.
-/

variable {H E B : Type} [Multimap H HeaderName HeaderValue]

/-- Headers accumulated before they are applied to a response. -/
structure ResponseParts (H : Type) where
  headers : H

/-- No headers. -/
def ResponseParts.new : ResponseParts H :=
  ⟨Multimap.empty⟩

/-- One step of a walk over the consuming iterator: an item without a name is skipped. -/
def appendNamed (headers : H) (item : Option HeaderName × HeaderValue) : H :=
  match item with
  | (some k, value) => Multimap.append headers k value
  | (none, _) => headers

/-- Apply the accumulated headers to a response. -/
def ResponseParts.applyTo (self : ResponseParts H) (response : Response H E B) :
    Response H E B :=
  { response with headers := (Multimap.intoIter self.headers).foldl appendNamed response.headers }

/-- Values that can be turned into a response. -/
class IntoResponse (T H E B : Type) where
  intoResponse : T → Response H E B

instance : IntoResponse (Response H E B) H E B := ⟨id⟩
instance : IntoResponse Empty H E B := ⟨nofun⟩

/-- Values that add headers to a response, or fail with an error that is itself a response. -/
class IntoResponseParts (P H : Type) (Error : outParam Type) where
  intoResponseParts : P → ResponseParts H → Except Error (ResponseParts H)

/-- Apply a parts value to a response. -/
def applyParts {P Error : Type} [IntoResponseParts P H Error] [IntoResponse Error H E B]
    (partsValue : P) (response : Response H E B) : Response H E B :=
  match IntoResponseParts.intoResponseParts partsValue (ResponseParts.new : ResponseParts H) with
  | .ok acc => acc.applyTo response
  | .error e => IntoResponse.intoResponse e

/-! ### The parts values of the core -/

/-- A list of headers to append, converted when the response is built. -/
structure AppendHeaders (K V : Type) where
  items : List (K × V)

namespace AppendHeaders

variable {K V : Type} [TryInto K HeaderName] [TryInto V HeaderValue]

/-- One item: a pair that does not convert is dropped. -/
def appendItem (headers : H) (item : K × V) : H :=
  match (TryInto.tryInto item.1 : Option HeaderName),
    (TryInto.tryInto item.2 : Option HeaderValue) with
  | some name, some val => Multimap.append headers name val
  | none, _ => headers
  | _, none => headers

instance : IntoResponseParts (AppendHeaders K V) H Empty where
  intoResponseParts self parts := .ok ⟨self.items.foldl appendItem parts.headers⟩

/-- The pairs that convert. -/
def validPairs (self : AppendHeaders K V) : List (HeaderName × HeaderValue) :=
  self.items.filterMap fun item ↦
    (TryInto.tryInto item.1 : Option HeaderName).bind fun name ↦
      (TryInto.tryInto item.2 : Option HeaderValue).map fun val ↦ (name, val)

/-- The walk over the items appends exactly the pairs that convert. -/
theorem foldl_appendItem (self : AppendHeaders K V) (headers : H) :
    self.items.foldl appendItem headers =
      self.validPairs.foldl (fun m p ↦ Multimap.append m p.1 p.2) headers := by
  rw [validPairs, List.foldl_filterMap]
  congr 1
  funext m item
  rw [appendItem]
  cases (TryInto.tryInto item.1 : Option HeaderName) with
  | none => rfl
  | some name => cases (TryInto.tryInto item.2 : Option HeaderValue) <;> rfl

end AppendHeaders

/-- A `Link: rel=preload` value. -/
structure PreloadLink where
  href : Str
  asValue : Option Str := none
  mimeType : Option Str := none
  crossorigin : Bool := false

namespace PreloadLink

/-- The text of the header value. -/
def render (self : PreloadLink) : Str :=
  '<' :: self.href ++ ">; rel=preload".toList ++
    (self.asValue.elim [] fun asValue ↦ "; as=".toList ++ asValue) ++
    (self.mimeType.elim [] fun mimeType ↦ "; type=\"".toList ++ mimeType ++ ['"']) ++
    (if self.crossorigin then "; crossorigin".toList else [])

/-- The header value, if the text is a valid one. -/
def headerValue (self : PreloadLink) : Option HeaderValue :=
  HeaderValue.fromStr self.render

end PreloadLink

/-- A list of preload links. -/
structure Preload where
  links : List PreloadLink

namespace Preload

/-- One link: a link whose text is not a header value is dropped. -/
def appendLink (headers : H) (link : PreloadLink) : H :=
  match link.headerValue with
  | some value => Multimap.append headers HeaderName.link value
  | none => headers

instance : IntoResponseParts Preload H Empty where
  intoResponseParts self parts := .ok ⟨self.links.foldl appendLink parts.headers⟩

/-- The walk over the links appends exactly the links that render to a header value. -/
theorem foldl_appendLink (self : Preload) (headers : H) :
    self.links.foldl appendLink headers =
      (self.links.filterMap fun link ↦ link.headerValue.map fun v ↦ (HeaderName.link, v)).foldl
        (fun m p ↦ Multimap.append m p.1 p.2) headers := by
  rw [List.foldl_filterMap]
  congr 1
  funext m link
  rw [appendLink]
  cases link.headerValue <;> rfl

end Preload

/-- A header map is a parts value itself. -/
instance : IntoResponseParts H H Empty where
  intoResponseParts self parts := .ok ⟨(Multimap.intoIter self).foldl appendNamed parts.headers⟩

/-! ### What a walk over the consuming iterator keeps -/

theorem foldl_appendNamed (items : List (Option HeaderName × HeaderValue)) (headers : H) :
    items.foldl appendNamed headers =
      (Multimap.named items).foldl (fun m p ↦ Multimap.append m p.1 p.2) headers := by
  rw [Multimap.named, List.foldl_filterMap]
  congr 1
  funext m p
  rcases p with ⟨- | k, v⟩ <;> rfl

/-- A walk over the consuming iterator of a map appends the first value of every name. -/
theorem getAll_foldl_appendNamed (map headers : H) (n : HeaderName) :
    Multimap.getAll ((Multimap.intoIter map).foldl appendNamed headers) n =
      Multimap.getAll headers n ++ (Multimap.getAll map n).take 1 := by
  rw [foldl_appendNamed, Multimap.getAll_foldl_append, Multimap.valuesFor_named_intoIter]

/-- Applying parts adds, for every name, the first accumulated value. -/
theorem getAll_applyTo (parts : ResponseParts H) (r : Response H E B) (n : HeaderName) :
    Multimap.getAll (parts.applyTo r).headers n =
      Multimap.getAll r.headers n ++ (Multimap.getAll parts.headers n).take 1 :=
  getAll_foldl_appendNamed _ _ n

/-- The values a successful parts value accumulates for a name decide what the response gains. -/
theorem getAll_applyParts {P Error : Type} [IntoResponseParts P H Error]
    [IntoResponse Error H E B] {partsValue : P} {acc : ResponseParts H} (r : Response H E B)
    (n : HeaderName)
    (h : IntoResponseParts.intoResponseParts partsValue ResponseParts.new = .ok acc) :
    Multimap.getAll (applyParts partsValue r).headers n =
      Multimap.getAll r.headers n ++ (Multimap.getAll acc.headers n).take 1 := by
  rw [applyParts, h]
  exact getAll_applyTo acc r n
