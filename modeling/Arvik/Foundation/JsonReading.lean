import Arvik.Foundation.HexNumeral
import Arvik.Foundation.JsonWriter

/-!
# Reading what was written

A document can be told from what the writer made of it (`write_injective`). So a reader that accepts
what the writer writes has no choice, and no text that is put into a document as a string can come
out of it as anything else.

Each piece is told from what follows it: an escape says how long it is (`unescape_escapeChar`), a
string ends at its quote, a number at the first character that cannot be in one, and every other
value by its own brackets.

No reader of documents is written for this. Injectivity is proved about the writer itself, in the
form that a value and what follows it are told apart together (`write_append_inj`); in this form it
goes through the items of an array and the members of an object, by one induction on documents,
items and members at once. Numbers are the one kind of value without an end of their own, and the
reason why what follows a document is restricted in the statement (`EndsNumber`).
-/

namespace JsonText

/-! ### Characters and strings -/

/-- What follows a backslash. -/
def unescapeTail : Str → Option (Char × Str)
  | '"' :: rest => some ('"', rest)
  | '\\' :: rest => some ('\\', rest)
  | 'b' :: rest => some ('\x08', rest)
  | 'f' :: rest => some ('\x0C', rest)
  | 'n' :: rest => some ('\n', rest)
  | 'r' :: rest => some ('\r', rest)
  | 't' :: rest => some ('\t', rest)
  | 'u' :: '0' :: '0' :: high :: low :: rest =>
    (Radix.toDigit 16 high).bind fun h ↦
      (Radix.toDigit 16 low).map fun l ↦ (Char.ofNat (16 * h + l), rest)
  | _ => none

/-- Read the first character of a string as it is written. -/
def unescape : Str → Option (Char × Str)
  | [] => none
  | c :: rest => if c = '\\' then unescapeTail rest else some (c, rest)

theorem unescape_escapeChar (c : Char) (rest : Str) :
    unescape (escapeChar c ++ rest) = some (c, rest) := by
  rw [escapeChar]
  split_ifs with hquote hback hb hf hn hr ht hcontrol
  · rw [hquote]
    rfl
  · rw [hback]
    rfl
  · rw [hb]
    rfl
  · rw [hf]
    rfl
  · rw [hn]
    rfl
  · rw [hr]
    rfl
  · rw [ht]
    rfl
  · have hhigh := (Radix.digitChar_spec (c.toNat / 16) (by omega)).2
    have hlow := (Radix.digitChar_spec (c.toNat % 16) (by omega)).2
    show ((Radix.toDigit 16 (Nat.digitChar (c.toNat / 16))).bind fun h ↦
      (Radix.toDigit 16 (Nat.digitChar (c.toNat % 16))).map fun l ↦
        (Char.ofNat (16 * h + l), rest)) = some (c, rest)
    rw [hhigh, hlow, Option.bind_some, Option.map_some, Nat.div_add_mod, Char.ofNat_toNat]
  · exact if_neg hback

theorem escapeChar_append_inj {c d : Char} {s t : Str} (h : escapeChar c ++ s = escapeChar d ++ t) :
    c = d ∧ s = t := by
  have hread := congrArg unescape h
  rw [unescape_escapeChar, unescape_escapeChar] at hread
  exact Prod.mk.inj (Option.some.inj hread)

/-- A text is told by its escapes. -/
theorem flatMap_escapeChar_injective : Function.Injective (List.flatMap escapeChar) := by
  have hne : ∀ (c : Char) (s : Str), escapeChar c ++ s ≠ [] := fun c s h ↦ by
    have hread := unescape_escapeChar c s
    rw [h] at hread
    cases hread
  intro s
  induction s with
  | nil =>
    rintro (- | ⟨d, t⟩) h
    · rfl
    · exact absurd h.symm (hne d _)
  | cons c s ih =>
    rintro (- | ⟨d, t⟩) h
    · exact absurd h (hne c _)
    · obtain ⟨rfl, hrest⟩ := escapeChar_append_inj h
      rw [ih hrest]

/-- A string is told from what follows it. -/
theorem writeString_append_inj {s t x y : Str} (h : writeString s ++ x = writeString t ++ y) :
    s = t ∧ x = y := by
  simp only [writeString, List.cons_append, List.append_assoc, List.nil_append, List.cons.injEq,
    true_and] at h
  obtain ⟨hchars, hrest⟩ := (isChars_flatMap_escapeChar s).append_quote_inj
    (isChars_flatMap_escapeChar t) h
  exact ⟨flatMap_escapeChar_injective hchars, hrest⟩

/-- Characters that stand for themselves are written as they are. -/
theorem writeString_of_plain {s : Str} (h : ∀ c ∈ s, isPlain c) :
    writeString s = '"' :: s ++ ['"'] := by
  have hchars : s.flatMap escapeChar = s.flatMap fun c ↦ [c] := List.flatMap_congr fun c hc ↦ by
    have hplain := h c hc
    simp only [isPlain, Bool.and_eq_true, decide_eq_true_eq] at hplain
    obtain ⟨⟨hcontrol, hquote⟩, hback⟩ := hplain
    have hcode : ∀ d : Char, d.toNat < 32 → c ≠ d := fun d hd hcd ↦ by
      rw [hcd] at hcontrol
      omega
    rw [escapeChar, if_neg hquote, if_neg hback, if_neg (hcode _ (by decide)),
      if_neg (hcode _ (by decide)), if_neg (hcode _ (by decide)), if_neg (hcode _ (by decide)),
      if_neg (hcode _ (by decide)), if_neg (by omega)]
  rw [writeString, hchars, List.flatMap_singleton']

/-! ### Numbers -/

/-- The characters of numbers. -/
def isNumeral (c : Char) : Bool :=
  c.isDigit || c = '-' || c = '+' || c = '.' || c = 'e' || c = 'E'

theorem IsNumber.isNumeral {s : Str} (h : IsNumber s) : ∀ c ∈ s, isNumeral c := by
  have hdigits : ∀ {digits : Str}, IsDigits digits → ∀ c ∈ digits, JsonText.isNumeral c :=
    fun h c hc ↦ by simp only [JsonText.isNumeral, h.2 c hc, Bool.true_or]
  obtain ⟨hsign, hwhole, -, hfraction, hexponent⟩ := h
  simp only [List.mem_append, or_imp, forall_and]
  refine ⟨⟨⟨?_, hdigits hwhole⟩, ?_⟩, ?_⟩
  · rcases hsign with rfl | rfl
    · exact fun c hc ↦ absurd hc List.not_mem_nil
    · exact List.forall_mem_singleton.2 (by decide)
  · rcases hfraction with rfl | ⟨digits, hfraction, rfl⟩
    · exact fun c hc ↦ absurd hc List.not_mem_nil
    · exact List.forall_mem_cons.2 ⟨by decide, hdigits hfraction⟩
  · rcases hexponent with rfl | ⟨e, sign, digits, he, hsign, hexponent, rfl⟩
    · exact fun c hc ↦ absurd hc List.not_mem_nil
    · refine List.forall_mem_cons.2 ⟨?_, List.forall_mem_append.2 ⟨?_, hdigits hexponent⟩⟩
      · rcases he with rfl | rfl
        · decide
        · decide
      · rcases hsign with rfl | rfl | rfl
        · exact fun c hc ↦ absurd hc List.not_mem_nil
        · exact List.forall_mem_singleton.2 (by decide)
        · exact List.forall_mem_singleton.2 (by decide)

/-- A text that does not go on with the characters of a number. -/
def EndsNumber (s : Str) : Prop :=
  ∀ c ∈ s.head?, isNumeral c = false

theorem endsNumber_cons {c : Char} (h : isNumeral c = false) (s : Str) : EndsNumber (c :: s) :=
  fun d hd ↦ by rwa [← Option.some.inj hd]

theorem takeWhile_isNumeral_append {n s : Str} (hn : ∀ c ∈ n, isNumeral c) (hs : EndsNumber s) :
    (n ++ s).takeWhile isNumeral = n := by
  rw [List.takeWhile_append_of_pos hn]
  rcases s with - | ⟨c, s⟩
  · exact List.append_nil n
  · rw [List.takeWhile_cons_of_neg (Bool.eq_false_iff.1 (hs c rfl)), List.append_nil]

/-- A number is told from what follows it. -/
theorem Number.append_inj {n m : Number} {s t : Str} (hs : EndsNumber s) (ht : EndsNumber t)
    (h : n.text ++ s = m.text ++ t) : n = m ∧ s = t := by
  have htext : n.text = m.text := by
    rw [← takeWhile_isNumeral_append n.valid.isNumeral hs, h,
      takeWhile_isNumeral_append m.valid.isNumeral ht]
  rw [htext] at h
  cases n
  cases m
  cases htext
  exact ⟨rfl, List.append_cancel_left h⟩

/-! ### Documents -/

/-- What the first character of a document says about it. -/
inductive Shape
  | null
  | bool (b : Bool)
  | number
  | string
  | array
  | object
  deriving DecidableEq

def Value.shape : Value → Shape
  | .null => .null
  | .bool b => .bool b
  | .number _ => .number
  | .string _ => .string
  | .array _ => .array
  | .object _ => .object

/-- The shape of the document that a character starts. -/
def shapeOf (c : Char) : Option Shape :=
  if c = 'n' then some .null
  else if c = 't' then some (.bool true)
  else if c = 'f' then some (.bool false)
  else if c = '"' then some .string
  else if c = '[' then some .array
  else if c = '{' then some .object
  else if c = '-' || c.isDigit then some .number
  else none

theorem exists_head_write (v : Value) : ∃ c t, write v = c :: t ∧ shapeOf c = some v.shape := by
  match v with
  | .null => exact ⟨'n', _, rfl, rfl⟩
  | .bool true => exact ⟨'t', _, rfl, rfl⟩
  | .bool false => exact ⟨'f', _, rfl, rfl⟩
  | .number n =>
    obtain ⟨c, t, hwrite, hc⟩ := n.valid.head
    have hne : ∀ d : Char, d ≠ '-' → d.isDigit = false → c ≠ d := fun d hsign hdigit hcd ↦ by
      rw [hcd, hdigit] at hc
      exact hc.elim hsign Bool.false_ne_true
    refine ⟨c, t, hwrite, ?_⟩
    rw [shapeOf, if_neg (hne _ (by decide) (by decide)), if_neg (hne _ (by decide) (by decide)),
      if_neg (hne _ (by decide) (by decide)), if_neg (hne _ (by decide) (by decide)),
      if_neg (hne _ (by decide) (by decide)), if_neg (hne _ (by decide) (by decide)), if_pos]
    · rfl
    · simpa using hc
  | .string s => exact ⟨'"', _, rfl, rfl⟩
  | .array items => exact ⟨'[', _, rfl, rfl⟩
  | .object members => exact ⟨'{', _, rfl, rfl⟩

/-- Documents that are written alike have one shape. -/
theorem shape_eq_of_write_append {v w : Value} {s t : Str} (h : write v ++ s = write w ++ t) :
    v.shape = w.shape := by
  obtain ⟨c, v', hv, hc⟩ := exists_head_write v
  obtain ⟨d, w', hw, hd⟩ := exists_head_write w
  rw [hv, hw] at h
  rw [(List.cons.inj h).1] at hc
  exact Option.some.inj (hc.symm.trans hd)

/-- A document does not start with a character that starts none. -/
theorem write_append_ne {v : Value} {s t : Str} {c : Char} (hc : shapeOf c = none) :
    write v ++ s ≠ c :: t := by
  intro h
  obtain ⟨d, v', hv, hd⟩ := exists_head_write v
  rw [hv] at h
  rw [(List.cons.inj h).1, hc] at hd
  cases hd

/-- What follows the first item of an array. -/
def itemsTail : List Value → Str
  | [] => []
  | item :: items => ',' :: writeItems (item :: items)

theorem writeItems_cons (item : Value) (items : List Value) :
    writeItems (item :: items) = write item ++ itemsTail items := by
  rcases items with - | ⟨next, items⟩
  · exact (List.append_nil _).symm
  · exact writeItems.eq_3 item (next :: items) nofun

theorem endsNumber_itemsTail (items : List Value) (s : Str) :
    EndsNumber (itemsTail items ++ ']' :: s) := by
  rcases items with - | ⟨item, items⟩
  · exact endsNumber_cons (by decide) s
  · exact endsNumber_cons (by decide) _

/-- What follows the first member of an object. -/
def membersTail : List (Str × Value) → Str
  | [] => []
  | member :: members => ',' :: writeMembers (member :: members)

theorem writeMembers_cons (name : Str) (value : Value) (members : List (Str × Value)) :
    writeMembers ((name, value) :: members) =
      writeString name ++ ':' :: (write value ++ membersTail members) := by
  rcases members with - | ⟨next, members⟩
  · rw [membersTail, List.append_nil]
    rfl
  · rw [writeMembers.eq_3 name value (next :: members) nofun, List.append_assoc]
    rfl

theorem endsNumber_membersTail (members : List (Str × Value)) (s : Str) :
    EndsNumber (membersTail members ++ '}' :: s) := by
  rcases members with - | ⟨member, members⟩
  · exact endsNumber_cons (by decide) s
  · exact endsNumber_cons (by decide) _

mutual

/-- A document is told from what follows it. -/
theorem write_append_inj : ∀ (v w : Value) {s t : Str}, EndsNumber s → EndsNumber t →
    write v ++ s = write w ++ t → v = w ∧ s = t
  | .null, w, s, t, _, _, h => by
    have hshape : Shape.null = w.shape := shape_eq_of_write_append h
    cases w with
    | null => exact ⟨rfl, List.append_cancel_left h⟩
    | _ => cases hshape
  | .bool b, w, s, t, _, _, h => by
    have hshape : Shape.bool b = w.shape := shape_eq_of_write_append h
    cases w with
    | bool b' =>
      obtain rfl : b = b' := Shape.bool.inj hshape
      exact ⟨rfl, List.append_cancel_left h⟩
    | _ => cases hshape
  | .number n, w, s, t, hs, ht, h => by
    have hshape : Shape.number = w.shape := shape_eq_of_write_append h
    cases w with
    | number m =>
      obtain ⟨rfl, hrest⟩ := Number.append_inj hs ht h
      exact ⟨rfl, hrest⟩
    | _ => cases hshape
  | .string x, w, s, t, _, _, h => by
    have hshape : Shape.string = w.shape := shape_eq_of_write_append h
    cases w with
    | string y =>
      obtain ⟨rfl, hrest⟩ := writeString_append_inj h
      exact ⟨rfl, hrest⟩
    | _ => cases hshape
  | .array items, w, s, t, _, _, h => by
    have hshape : Shape.array = w.shape := shape_eq_of_write_append h
    cases w with
    | array items' =>
      simp only [write, List.cons_append, List.append_assoc, List.nil_append, List.cons.injEq,
        true_and] at h
      obtain ⟨rfl, hrest⟩ := writeItems_append_inj items items' h
      exact ⟨rfl, hrest⟩
    | _ => cases hshape
  | .object members, w, s, t, _, _, h => by
    have hshape : Shape.object = w.shape := shape_eq_of_write_append h
    cases w with
    | object members' =>
      simp only [write, List.cons_append, List.append_assoc, List.nil_append, List.cons.injEq,
        true_and] at h
      obtain ⟨rfl, hrest⟩ := writeMembers_append_inj members members' h
      exact ⟨rfl, hrest⟩
    | _ => cases hshape

/-- The items of an array are told by its bracket. -/
theorem writeItems_append_inj : ∀ (items items' : List Value) {s t : Str},
    writeItems items ++ ']' :: s = writeItems items' ++ ']' :: t → items = items' ∧ s = t
  | [], [], s, t, h => ⟨rfl, (List.cons.inj h).2⟩
  | [], item :: items, s, t, h => by
    rw [writeItems_cons, List.append_assoc] at h
    exact absurd h.symm (write_append_ne (by decide))
  | item :: items, [], s, t, h => by
    rw [writeItems_cons, List.append_assoc] at h
    exact absurd h (write_append_ne (by decide))
  | item :: items, item' :: items', s, t, h => by
    rw [writeItems_cons, writeItems_cons, List.append_assoc, List.append_assoc] at h
    obtain ⟨rfl, hrest⟩ := write_append_inj item item' (endsNumber_itemsTail items s)
      (endsNumber_itemsTail items' t) h
    match items, items' with
    | [], [] => exact ⟨rfl, (List.cons.inj hrest).2⟩
    | [], _ :: _ => exact absurd (List.cons.inj hrest).1 (by decide)
    | _ :: _, [] => exact absurd (List.cons.inj hrest).1 (by decide)
    | next :: items, next' :: items' =>
      obtain ⟨hitems, hst⟩ := writeItems_append_inj (next :: items) (next' :: items')
        (List.cons.inj hrest).2
      exact ⟨congrArg (item :: ·) hitems, hst⟩

/-- The members of an object are told by its brace. -/
theorem writeMembers_append_inj : ∀ (members members' : List (Str × Value)) {s t : Str},
    writeMembers members ++ '}' :: s = writeMembers members' ++ '}' :: t →
      members = members' ∧ s = t
  | [], [], s, t, h => ⟨rfl, (List.cons.inj h).2⟩
  | [], (name, value) :: members, s, t, h => by
    rw [writeMembers_cons] at h
    exact absurd (List.cons.inj h).1 (by decide)
  | (name, value) :: members, [], s, t, h => by
    rw [writeMembers_cons] at h
    exact absurd (List.cons.inj h).1 (by decide)
  | (name, value) :: members, (name', value') :: members', s, t, h => by
    rw [writeMembers_cons, writeMembers_cons, List.append_assoc, List.append_assoc] at h
    obtain ⟨rfl, hcolon⟩ := writeString_append_inj h
    have hvalue : write value ++ membersTail members ++ '}' :: s =
      write value' ++ membersTail members' ++ '}' :: t := (List.cons.inj hcolon).2
    rw [List.append_assoc, List.append_assoc] at hvalue
    obtain ⟨rfl, hrest⟩ := write_append_inj value value' (endsNumber_membersTail members s)
      (endsNumber_membersTail members' t) hvalue
    match members, members' with
    | [], [] => exact ⟨rfl, (List.cons.inj hrest).2⟩
    | [], _ :: _ => exact absurd (List.cons.inj hrest).1 (by decide)
    | _ :: _, [] => exact absurd (List.cons.inj hrest).1 (by decide)
    | next :: members, next' :: members' =>
      obtain ⟨hmembers, hst⟩ := writeMembers_append_inj (next :: members) (next' :: members')
        (List.cons.inj hrest).2
      exact ⟨congrArg ((name, value) :: ·) hmembers, hst⟩

end

/-- **What is written tells what it was written from.** It is the case of two documents with nothing
behind them. -/
theorem write_injective : Function.Injective write := fun v w h ↦
  (write_append_inj v w (s := []) (t := []) nofun nofun (congrArg (· ++ []) h)).1

end JsonText
