import Arvik.Foundation.Serde
import Arvik.Router.Params

/-!
# The deserializer of path parameters

The parameters that a route captured are read as one value. There is a deserializer for all of them,
one for the value of a parameter and one for its name. All of them are a map or a sequence, and a
single one is also what its value is. A value is a scalar, whatever was asked for, and a name is a
text.

The source writes one deserializer for each of the three, in the visitor style: a type asks for a
shape and is handed what there is. Here the three are one inductive type of sources, and a method is
the function from the shape asked for to what is visited, so that a derived type is an ordinary
recursive definition over the sources and not a family of callbacks. The shapes no method was
written for are refused as the source refuses them, with the text of its error.
-/

open Serde

variable [FloatLib]

/-- An error of the deserializer. -/
structure PathDeserializeError where
  message : Str
  deriving DecidableEq

/-- What is read: all parameters, the value of one, or the name of one. -/
inductive PathSource
  | path (params : List (Str × Str))
  | value (text : Str)
  | key (name : Str)
  deriving DecidableEq

namespace PathSource

/-- The answer to shapes that no method is written for: a text is read as a scalar. -/
def unsupported (type : IntType) : PathDeserializeError :=
  ⟨type.name ++ " is not supported".toList⟩

/-- An error that quotes the text. -/
def invalid (kind : Str) (text : Str) : PathDeserializeError :=
  ⟨"invalid ".toList ++ kind ++ ": `".toList ++ text ++ "`".toList⟩

/-- What the value of a parameter is read as. -/
def deserializeValue (text : Str) : Hint → Except PathDeserializeError (Visit PathSource)
  | .bool =>
    if text = "true".toList ∨ text = "1".toList then .ok (.bool true)
    else if text = "false".toList ∨ text = "0".toList then .ok (.bool false)
    else .error (invalid "boolean".toList text)
  | .int .i128 => .error (unsupported .i128)
  | .int .u128 => .error (unsupported .u128)
  | .int type =>
    match type.parse text with
    | some n => .ok (.int type n)
    | none => .error (invalid type.name text)
  | .f32 =>
    match FloatLib.parseF32 text with
    | some x => .ok (.f32 x)
    | none => .error (invalid "f32".toList text)
  | .f64 =>
    match FloatLib.parseF64 text with
    | some x => .ok (.f64 x)
    | none => .error (invalid "f64".toList text)
  | .char =>
    match text with
    | [c] => .ok (.char c)
    | _ => .error (invalid "char".toList text)
  | .option => .ok (.some (.value text))
  | .newtypeStruct => .ok (.newtypeStruct (.value text))
  | .enum => .ok (.enum (.value text))
  -- a text, whatever composite was asked for
  | .any | .str | .string | .bytes | .byteBuf | .unit | .unitStruct | .seq | .tuple | .tupleStruct
  | .map | .struct | .identifier | .ignoredAny => .ok (.str text)

/-- What the name of a parameter is read as: a text, but for the shapes without a method. -/
def deserializeKey (name : Str) : Hint → Except PathDeserializeError (Visit PathSource)
  | .int .i128 => .error (unsupported .i128)
  | .int .u128 => .error (unsupported .u128)
  | _ => .ok (.str name)

/-- A scalar is read from a single parameter. -/
def delegateSingle (params : List (Str × Str)) (hint : Hint) :
    Except PathDeserializeError (Visit PathSource) :=
  match params with
  | [(_, text)] => deserializeValue text hint
  | _ => .error ⟨"expected single path parameter for ".toList ++ hint.method⟩

/-- The elements of a sequence of parameters. -/
def elements (params : List (Str × Str)) : List PathSource :=
  params.map fun p ↦ .value p.2

/-- The entries of a map of parameters. -/
def entries (params : List (Str × Str)) : List (PathSource × PathSource) :=
  params.map fun p ↦ (.key p.1, .value p.2)

/-- A text if there is a single parameter, and a map otherwise. -/
def deserializeAny (params : List (Str × Str)) : Visit PathSource :=
  match params with
  | [(_, text)] => .str text
  | _ => .map (entries params)

/-- What all parameters are read as. -/
def deserializePath (params : List (Str × Str)) :
    Hint → Except PathDeserializeError (Visit PathSource)
  | .map | .struct => .ok (.map (entries params))
  | .seq | .tuple | .tupleStruct => .ok (.seq (elements params))
  | .newtypeStruct => .ok (.newtypeStruct (.path params))
  | .enum =>
    match params with
    | [(_, text)] => .ok (.enum (.value text))
    | _ => .error ⟨"enums can only be extracted from a single path parameter".toList⟩
  | .option =>
    match params with
    | [(_, text)] => deserializeValue text .option
    | _ => .error ⟨"expected single path parameter for option".toList⟩
  | .int .i128 => .error (unsupported .i128)
  | .int .u128 => .error (unsupported .u128)
  | .any | .unit | .unitStruct | .identifier | .ignoredAny => .ok (deserializeAny params)
  | hint => delegateSingle params hint

/-- The methods of the three deserializers. -/
def deserialize : PathSource → Hint → Except PathDeserializeError (Visit PathSource)
  | .path params => deserializePath params
  | .value text => deserializeValue text
  | .key name => deserializeKey name

instance : Deserializer PathSource PathDeserializeError where
  deserialize := deserialize
  custom := .mk
  duplicateField name := ⟨"duplicate field `".toList ++ name ++ "`".toList⟩
  missingField name := ⟨"missing field `".toList ++ name ++ "`".toList⟩
  invalidLength n expecting :=
    ⟨"invalid length ".toList ++ Nat.toDigits 10 n ++ ", expected ".toList ++ expecting⟩

end PathSource
