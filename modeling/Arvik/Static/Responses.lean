import Arvik.Core.Accept
import Arvik.Core.ResponseBuilder

/-!
# Common parts of the static services

The content type of an asset, the precompressed variants a request accepts, the redirect to a
directory and its listing. Content types outside the common ones are guessed by a library, of which
it is only used that a guess is printable.

The directory service and the service for embedded assets share all of this, so it is stated over a
request and a path, and knows of neither. The redirect is made from the target before any prefix was
stripped from it, where the router left that; a location that is no header value turns the redirect
into an error page, as any failing builder does (`redirectToSlash_eq`).
-/

/-- The content type library. -/
class MimeGuessLib where
  /-- The first guess for a path, or the type of arbitrary bytes. -/
  essence : Str → Str
  essence_visible : ∀ path, ∀ c ∈ essence path, 32 ≤ c.toNat ∧ c.toNat < 127

/-- The target of a request before any prefix was stripped from it. -/
structure OriginalUri where
  uri : Uri

namespace Static

/-! ### Content types -/

/-- The last component of a path, if it is a name. -/
def pathFileName (path : Str) : Option Str :=
  ((path.splitOn '/').reverse.dropWhile fun part ↦ part = [] ∨ part = ['.']).head?.filter
    fun part ↦ part ≠ ['.', '.']

/-- The text after the last dot of a name, unless that dot is in front. -/
def extension (name : Str) : Option Str :=
  (Text.splitOnce '.' name.reverse).bind fun (after, before) ↦
    if before = [] then none else some after.reverse

/-- The content types of the common extensions. -/
def commonTypes : List (Str × HeaderValue) :=
  [("html".toList, .fromStatic "text/html"),
    ("htm".toList, .fromStatic "text/html"),
    ("css".toList, .fromStatic "text/css"),
    ("js".toList, .fromStatic "text/javascript"),
    ("mjs".toList, .fromStatic "application/javascript"),
    ("json".toList, .applicationJson),
    ("txt".toList, .fromStatic "text/plain"),
    ("xml".toList, .fromStatic "text/xml"),
    ("svg".toList, .fromStatic "image/svg+xml"),
    ("png".toList, .fromStatic "image/png"),
    ("jpg".toList, .fromStatic "image/jpeg"),
    ("jpeg".toList, .fromStatic "image/jpeg"),
    ("gif".toList, .fromStatic "image/gif"),
    ("webp".toList, .fromStatic "image/webp"),
    ("avif".toList, .fromStatic "image/avif"),
    ("ico".toList, .fromStatic "image/x-icon"),
    ("wasm".toList, .fromStatic "application/wasm"),
    ("woff".toList, .fromStatic "application/font-woff"),
    ("woff2".toList, .fromStatic "font/woff2"),
    ("ttf".toList, .fromStatic "font/ttf"),
    ("otf".toList, .fromStatic "application/font-sfnt"),
    ("mp4".toList, .fromStatic "video/mp4"),
    ("webm".toList, .fromStatic "video/webm"),
    ("pdf".toList, .fromStatic "application/pdf")]

/-- The content type of an asset. -/
def contentType [MimeGuessLib] (path : Str) : HeaderValue :=
  let ext := ((pathFileName path).bind extension).getD []
  match commonTypes.lookup (ext.map Text.toAsciiLowercase) with
  | some mime => mime
  | none => .ofVisible (MimeGuessLib.essence path) (MimeGuessLib.essence_visible path)

/-- A file in a directory of assets. -/
def joinAssetPath (base file : Str) : Str :=
  if base = [] then file
  else (base.reverse.dropWhile fun c ↦ c = '/').reverse ++ '/' :: file

section Messages

variable {H E B : Type} [Multimap H HeaderName HeaderValue]

/-! ### Precompressed variants -/

/-- All `Accept-Encoding` lines in one. -/
def combinedAcceptEncoding (req : Request H E B) : Str :=
  (Multimap.getAll req.headers HeaderName.acceptEncoding).foldl (fun combined value ↦
    match value.toStr with
    | some v => (if combined = [] then [] else combined ++ ", ".toList) ++ v
    | none => combined) []

/-- Of the two codings, which are wanted by the service and accepted by the request. -/
def acceptedPrecompressed [QualityLib] (req : Request H E B) (wantBr wantGzip : Bool) :
    Bool × Bool :=
  if wantBr || wantGzip then
    let combined := combinedAcceptEncoding req
    (wantBr && (Accept.negotiate ["br".toList] combined).isSome,
      wantGzip && (Accept.negotiate ["gzip".toList] combined).isSome)
  else (false, false)

/-! ### Responses without an asset -/

variable [Extensions E] [FromBytes B]

def isGetOrHead (method : Method) : Bool :=
  method = .get || method = .head

def methodNotAllowed : Response H E B :=
  ((ResponseBuilder.new.status .methodNotAllowed).header HeaderName.allow
    (HeaderValue.fromStatic "GET, HEAD")).text "Method Not Allowed".toList

def notFound : Response H E B :=
  ((ResponseBuilder.new.status .notFound).header HeaderName.contentType
    HeaderValue.textPlainUtf8).text "Not Found".toList

/-- The target with a slash after its path. -/
def slashLocation (uri : Uri) : Str :=
  let location := if uri.path.getLast? = some '/' then uri.path else uri.path ++ ['/']
  match uri.query with
  | some query => location ++ '?' :: query
  | none => location

/-- The redirect from a directory to its path with a slash. -/
def redirectToSlash [Extensions.Slot E OriginalUri] (req : Request H E B) : Response H E B :=
  let uri := ((Extensions.Slot.get req.extensions).map OriginalUri.uri).getD req.uri
  ((ResponseBuilder.new.status .temporaryRedirect).header HeaderName.location
    (slashLocation uri)).empty

/-- The target a redirect is made from: the one before any prefix was stripped from it. -/
def redirectedUri [Extensions.Slot E OriginalUri] (req : Request H E B) : Uri :=
  ((Extensions.Slot.get req.extensions).map OriginalUri.uri).getD req.uri

/-- The redirect has its location for a header, or is an error page where that is no valid value. -/
theorem redirectToSlash_eq [Extensions.Slot E OriginalUri] (req : Request H E B) :
    redirectToSlash req =
      match HeaderValue.fromStr (slashLocation (redirectedUri req)) with
      | some value =>
        (ResponseBuilder.ofPairs .temporaryRedirect [(HeaderName.location, value)]).empty
      | none => internalErrorResponse := by
  show ((ResponseBuilder.ofPairs .temporaryRedirect []).header HeaderName.location
    (slashLocation (redirectedUri req))).empty = _
  rcases hvalue : HeaderValue.fromStr (slashLocation (redirectedUri req)) with - | value
  · show (ResponseBuilder.mk (Option.map _ (HeaderValue.fromStr _))).empty = _
    rw [hvalue]
    rfl
  · rw [ResponseBuilder.header_ofPairs_of_fromStr _ hvalue]
    rfl

/-- The text of a character in a page. -/
def escapeHtmlChar : Char → Str
  | '&' => "&amp;".toList
  | '<' => "&lt;".toList
  | '>' => "&gt;".toList
  | '"' => "&quot;".toList
  | '\'' => "&#39;".toList
  | c => [c]

def escapeHtml (value : Str) : Str :=
  value.flatMap escapeHtmlChar

/-- The item of an entry in a listing. -/
def listingItem (entry : Str) : Str :=
  "<li><a href=\"".toList ++ escapeHtml entry ++ "\">".toList ++ escapeHtml entry ++
    "</a></li>".toList

/-- The page listing the entries of a directory. -/
def listingResponse (requestPath : Str) (entries : List Str) : Response H E B :=
  let html := "<!doctype html><meta charset=\"utf-8\"><title>Index of ".toList ++
    escapeHtml requestPath ++ "</title><h1>Index of ".toList ++ escapeHtml requestPath ++
    "</h1><ul>".toList ++ entries.flatMap listingItem ++ "</ul>".toList
  (ResponseBuilder.new.header HeaderName.contentType
    (HeaderValue.fromStatic "text/html; charset=utf-8")).body
    (FromBytes.fromBytes (Text.utf8 html))

end Messages

end Static
