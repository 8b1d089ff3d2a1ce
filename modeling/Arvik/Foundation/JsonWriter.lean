import Arvik.Foundation.JsonText

/-!
# Writing JSON

Documents and the compact writer of a serialization library: no blanks between tokens, short escapes
where there are any, and `\u` escapes for the other control characters. Numbers are kept as the text
they are written as, so that integers and floating point numbers are alike.

What the writer writes is in the grammar (`isValue_write`). The grammar allows blanks between any
two tokens, and the writer's output is the instance without any; the proof goes over documents,
items and members at once, as the writer does.
-/

namespace JsonText

/-- A number, by its text. -/
structure Number where
  text : Str
  valid : IsNumber text

/-- A document. The members of an object are in the order in which they are written. -/
inductive Value
  | null
  | bool (b : Bool)
  | number (n : Number)
  | string (s : Str)
  | array (items : List Value)
  | object (members : List (Str × Value))

/-- How a character is written in a string. -/
def escapeChar (c : Char) : Str :=
  if c = '"' then ['\\', '"']
  else if c = '\\' then ['\\', '\\']
  else if c = '\x08' then ['\\', 'b']
  else if c = '\x0C' then ['\\', 'f']
  else if c = '\n' then ['\\', 'n']
  else if c = '\r' then ['\\', 'r']
  else if c = '\t' then ['\\', 't']
  else if c.toNat < 32 then
    ['\\', 'u', '0', '0', Nat.digitChar (c.toNat / 16), Nat.digitChar (c.toNat % 16)]
  else [c]

/-- A string, quoted. -/
def writeString (s : Str) : Str :=
  '"' :: s.flatMap escapeChar ++ ['"']

mutual

/-- Write a document. -/
def write : Value → Str
  | .null => ['n', 'u', 'l', 'l']
  | .bool true => ['t', 'r', 'u', 'e']
  | .bool false => ['f', 'a', 'l', 's', 'e']
  | .number n => n.text
  | .string s => writeString s
  | .array items => '[' :: writeItems items ++ [']']
  | .object members => '{' :: writeMembers members ++ ['}']

/-- Write the items of an array. -/
def writeItems : List Value → Str
  | [] => []
  | [item] => write item
  | item :: items => write item ++ ',' :: writeItems items

/-- Write the members of an object. -/
def writeMembers : List (Str × Value) → Str
  | [] => []
  | [(name, value)] => writeString name ++ ':' :: write value
  | (name, value) :: members =>
    writeString name ++ ':' :: write value ++ ',' :: writeMembers members

end

/-! ### What is written is JSON -/

theorem isChars_escapeChar (c : Char) {s : Str} (hs : IsChars s) :
    IsChars (escapeChar c ++ s) := by
  have hdigit : ∀ d < 16, isHexDigit (Nat.digitChar d) := by decide
  rw [escapeChar]
  split_ifs with hquote hback hb hf hn hr ht hcontrol
  · exact .escape (by decide) hs
  · exact .escape (by decide) hs
  · exact .escape (by decide) hs
  · exact .escape (by decide) hs
  · exact .escape (by decide) hs
  · exact .escape (by decide) hs
  · exact .escape (by decide) hs
  · exact .unicode (by decide) (by decide) (hdigit _ (by omega)) (hdigit _ (by omega)) hs
  · refine .plain ?_ hs
    simp [isPlain, Nat.not_lt.1 hcontrol, hquote, hback]

theorem isChars_flatMap_escapeChar (s : Str) : IsChars (s.flatMap escapeChar) := by
  induction s with
  | nil => exact .nil
  | cons c s ih => exact isChars_escapeChar c ih

theorem isString_writeString (s : Str) : IsString (writeString s) :=
  .quoted (isChars_flatMap_escapeChar s)

/-- A member without blanks. -/
theorem Member.of_value {V : Str → Prop} {name v : Str} (hname : IsString name) (h : V v) :
    Member V (name ++ ':' :: v) := by
  have hmember := Member.mk isBlank_nil hname isBlank_nil (Element.of_value h)
  rwa [List.nil_append, List.append_nil] at hmember

mutual

/-- **What is written is a value.** -/
theorem isValue_write : ∀ v : Value, IsValue (write v)
  | .null => .null
  | .bool true => .true
  | .bool false => .false
  | .number n => .number n.valid
  | .string s => .string (isString_writeString s)
  | .array [] => .array (.empty (w := []) isBlank_nil)
  | .array (item :: items) =>
    .array (.elements (sepBy_writeItems (item :: items) (List.cons_ne_nil _ _)))
  | .object [] => .object (.empty (w := []) isBlank_nil)
  | .object (member :: members) =>
    .object (.members (sepBy_writeMembers (member :: members) (List.cons_ne_nil _ _)))

theorem sepBy_writeItems : ∀ items : List Value, items ≠ [] →
    SepBy (Element IsValue) (writeItems items)
  | [], h => absurd rfl h
  | [item], _ => .one (.of_value (isValue_write item))
  | item :: next :: items, _ =>
    .cons (.of_value (isValue_write item))
      (sepBy_writeItems (next :: items) (List.cons_ne_nil _ _))

theorem sepBy_writeMembers : ∀ members : List (Str × Value), members ≠ [] →
    SepBy (Member IsValue) (writeMembers members)
  | [], h => absurd rfl h
  | [(name, value)], _ => .one (.of_value (isString_writeString name) (isValue_write value))
  | (name, value) :: next :: members, _ =>
    .cons (.of_value (isString_writeString name) (isValue_write value))
      (sepBy_writeMembers (next :: members) (List.cons_ne_nil _ _))

end

/-- What is written is JSON. -/
theorem isText_write (v : Value) : IsText (write v) :=
  .of_value (isValue_write v)

/-- Quotes and control characters are escaped. -/
example : writeString "a\"b\n\x01".toList = "\"a\\\"b\\n\\u0001\"".toList := by decide

end JsonText
