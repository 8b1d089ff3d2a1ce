import Arvik.Foundation.Text

/-!
# Tags in a text

How a text is read as HTML: its tags with their attributes, and the text between them. A machine
reads one character after the other and gives a token when it is complete. Character references are
read in the text and in the values of attributes; of the named ones only the five that stand for
characters with a meaning in tags are known, and every declaration and comment ends with the first
closing bracket.

Text without an opening bracket stays text (`run_data`), and what is between quotes without such a
quote in it stays in the value of its attribute (`run_value`). These two rules are what escaping is
for: whoever escapes the brackets and the quotes may put any text in these two places, and the
machine is in the same state behind it as in front.

It is the reading of a writer that is to be checked, so the machine need not know how a browser
repairs what is not well formed. What a program writes around the texts is fixed, and the machine is
run on it.
-/

namespace Html

/-! ### Character references -/

/-- The names of the characters that have a meaning in tags. -/
def namedCharacters : List (Str × Char) :=
  [("amp".toList, '&'), ("lt".toList, '<'), ("gt".toList, '>'), ("quot".toList, '"'),
    ("apos".toList, '\'')]

/-- The character with a name, or with a number in decimal. -/
def reference : Str → Option Char
  | '#' :: digits =>
    if digits ≠ [] ∧ digits.all Char.isDigit then
      some (Char.ofNat (Nat.ofDigitChars 10 digits 0))
    else none
  | name => namedCharacters.lookup name

/-- The text with its references replaced, from a place on where a reference may have begun; what
has been read of it is kept until its semicolon shows what it is. -/
def unescapeFrom : Option Str → Str → Str
  | none, [] => []
  | some name, [] => '&' :: name
  | none, c :: s => if c = '&' then unescapeFrom (some []) s else c :: unescapeFrom none s
  | some name, c :: s =>
    if c = ';' then
      ((reference name).elim ('&' :: name ++ [';']) fun d ↦ [d]) ++ unescapeFrom none s
    else if c = '&' then '&' :: name ++ unescapeFrom (some []) s
    else unescapeFrom (some (name ++ [c])) s

/-- The text with its references replaced. -/
def unescape (s : Str) : Str :=
  unescapeFrom none s

example : unescape "1 &lt; 2 &amp;&#38; a&b;".toList = "1 < 2 && a&b;".toList := by decide

theorem unescapeFrom_cons_of_ne {c : Char} (h : c ≠ '&') (s : Str) :
    unescapeFrom none (c :: s) = c :: unescapeFrom none s :=
  if_neg h

/-! ### Tokens -/

inductive Token
  | declaration (text : Str)
  | startTag (name : Str) (attributes : List (Str × Str))
  | endTag (name : Str)
  | text (s : Str)
  deriving DecidableEq

/-- What has been read of a tag. -/
structure Tag where
  closing : Bool := false
  name : Str
  attributes : List (Str × Str) := []

/-- The tag with one more attribute, if it has none of that name yet. -/
def Tag.add (self : Tag) (name value : Str) : Tag :=
  if self.attributes.any fun known ↦ known.1 = name then self
  else { self with attributes := self.attributes ++ [(name, unescape value)] }

def Tag.token (self : Tag) : Token :=
  if self.closing then .endTag self.name else .startTag self.name self.attributes

/-- Where the machine is. -/
inductive State
  | data (text : Str)
  | tagOpen (text : Str)
  | endTagOpen
  | declaration (text : Str)
  | tagName (tag : Tag)
  | beforeName (tag : Tag)
  | attributeName (tag : Tag) (name : Str)
  | afterName (tag : Tag) (name : Str)
  | beforeValue (tag : Tag) (name : Str)
  | value (tag : Tag) (name : Str) (quote : Char) (text : Str)
  | unquoted (tag : Tag) (name : Str) (text : Str)

/-- The token of the text before a tag, if there is any. -/
def textTokens (text : Str) : List Token :=
  if text = [] then [] else [.text (unescape text)]

def isSpace (c : Char) : Bool :=
  c ∈ ['\t', '\n', '\x0c', '\r', ' ']

/-- A character where the name of an attribute may begin. -/
def beginName (tag : Tag) (c : Char) : List Token × State :=
  if isSpace c || c = '/' then ([], .beforeName tag)
  else if c = '>' then ([tag.token], .data [])
  else ([], .attributeName tag [Text.toAsciiLowercase c])

/-- What the machine does on a character. -/
def step : State → Char → List Token × State
  | .data text, c => if c = '<' then ([], .tagOpen text) else ([], .data (text ++ [c]))
  | .tagOpen text, c =>
    if c = '!' || c = '?' then (textTokens text, .declaration [])
    else if c = '/' then (textTokens text, .endTagOpen)
    else if c.isAlpha then (textTokens text, .tagName { name := [Text.toAsciiLowercase c] })
    -- a bracket that opens no tag is text
    else if c = '<' then ([], .tagOpen (text ++ ['<']))
    else ([], .data (text ++ ['<', c]))
  | .endTagOpen, c =>
    if c.isAlpha then ([], .tagName { closing := true, name := [Text.toAsciiLowercase c] })
    else if c = '>' then ([], .data [])
    -- a bogus comment, which ends like a declaration
    else ([], .declaration [c])
  | .declaration text, c =>
    if c = '>' then ([.declaration text], .data []) else ([], .declaration (text ++ [c]))
  | .tagName tag, c =>
    if isSpace c || c = '/' then ([], .beforeName tag)
    else if c = '>' then ([tag.token], .data [])
    else ([], .tagName { tag with name := tag.name ++ [Text.toAsciiLowercase c] })
  | .beforeName tag, c => beginName tag c
  | .attributeName tag name, c =>
    if c = '=' then ([], .beforeValue tag name)
    else if isSpace c then ([], .afterName tag name)
    else if c = '/' || c = '>' then beginName (tag.add name []) c
    else ([], .attributeName tag (name ++ [Text.toAsciiLowercase c]))
  | .afterName tag name, c =>
    if c = '=' then ([], .beforeValue tag name)
    else if isSpace c then ([], .afterName tag name)
    else beginName (tag.add name []) c
  | .beforeValue tag name, c =>
    if isSpace c then ([], .beforeValue tag name)
    else if c = '"' || c = '\'' then ([], .value tag name c [])
    else if c = '>' then ([(tag.add name []).token], .data [])
    else ([], .unquoted tag name [c])
  | .value tag name quote text, c =>
    if c = quote then ([], .beforeName (tag.add name text))
    else ([], .value tag name quote (text ++ [c]))
  | .unquoted tag name text, c =>
    if isSpace c || c = '>' then beginName (tag.add name text) c
    else ([], .unquoted tag name (text ++ [c]))

/-- The token of what is left at the end of the text. -/
def State.finish : State → List Token
  | data text => textTokens text
  | tagOpen text => textTokens (text ++ ['<'])
  | _ => []

/-- The tokens from a state on. -/
def run : State → Str → List Token
  | state, [] => state.finish
  | state, c :: s => (step state c).1 ++ run (step state c).2 s

/-- The tokens of a text. -/
def tokens (s : Str) : List Token :=
  run (.data []) s

example : tokens "<!doctype html><P CLASS='a b' id=x>1 &lt; 2</p>".toList =
    [.declaration "doctype html".toList,
      .startTag "p".toList [("class".toList, "a b".toList), ("id".toList, "x".toList)],
      .text "1 < 2".toList, .endTag "p".toList] := by
  decide

/-! ### What stays where it is -/

variable {s : Str} (rest : Str)

/-- Text without an opening bracket is part of the text before a tag. -/
theorem run_data (h : '<' ∉ s) (text : Str) :
    run (.data text) (s ++ rest) = run (.data (text ++ s)) rest := by
  induction s generalizing text with
  | nil => rw [List.nil_append, List.append_nil]
  | cons c s ih =>
    obtain ⟨hc, hs⟩ := List.ne_and_not_mem_of_not_mem_cons h
    have hstep : step (.data text) c = ([], .data (text ++ [c])) := if_neg hc.symm
    rw [List.cons_append, run, hstep, List.nil_append, ih hs, List.append_assoc,
      List.singleton_append]

/-- Text without the quote that ends the value of an attribute is part of the value. -/
theorem run_value {quote : Char} (h : quote ∉ s) (tag : Tag) (name text : Str) :
    run (.value tag name quote text) (s ++ rest) =
      run (.value tag name quote (text ++ s)) rest := by
  induction s generalizing text with
  | nil => rw [List.nil_append, List.append_nil]
  | cons c s ih =>
    obtain ⟨hc, hs⟩ := List.ne_and_not_mem_of_not_mem_cons h
    have hstep : step (.value tag name quote text) c =
      ([], .value tag name quote (text ++ [c])) := if_neg hc.symm
    rw [List.cons_append, run, hstep, List.nil_append, ih hs, List.append_assoc,
      List.singleton_append]

end Html
