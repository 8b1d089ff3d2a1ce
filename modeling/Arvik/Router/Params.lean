import Arvik.Core.Http
import Arvik.Foundation.Percent

/-!
# Path parameters

What the router records about a match in the extensions of a request: the parameters captured, their
values percent-decoded, and the pattern.

Decoding a value is not the inverse of encoding it. An escape of a separator, of a NUL or of a line
end stays as it stands, so that a value cannot bring a segment of its own into a path, and a value
that does not decode to text stays as it came. What follows for the values is in `ParamDecoding`;
here are the definitions only, which the router and the extractors share.
-/

/-- Captured path parameters, in the order of the pattern. -/
structure PathParams where
  pairs : List (Str × Str) := []
  deriving DecidableEq

/-- The value of a parameter. -/
def PathParams.get (self : PathParams) (key : Str) : Option Str :=
  self.pairs.lookup key

/-- The pattern of the route that matched. -/
structure MatchedPathExt where
  path : Str
  deriving DecidableEq

/-- The bytes whose escapes are kept: separators, and the control characters that end lines or
texts. -/
def keepsEscape (b : UInt8) : Bool :=
  b = 47 || b = 92 || b = 0 || b = 10 || b = 13

/-- Decode escapes, except those that are kept. -/
def percentDecodeBytes : Bytes → Bytes
  | b :: hi :: lo :: rest =>
    match Percent.escape? b hi lo with
    | some decoded =>
      if keepsEscape decoded then b :: hi :: lo :: percentDecodeBytes rest
      else decoded :: percentDecodeBytes rest
    | none => b :: percentDecodeBytes (hi :: lo :: rest)
  | short => short

/-- The value of a captured parameter; what does not decode to text stays as it is. -/
def percentDecode (input : Str) : Str :=
  let bytes := Text.utf8 input
  if bytes.contains 37 then (Text.fromUtf8 (percentDecodeBytes bytes)).getD input else input

example : percentDecode "a%2Eb%2Fc%zz".toList = "a.b%2Fc%zz".toList := by decide
