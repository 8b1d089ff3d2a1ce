import Arvik.Foundation.Decimal
import Mathlib.Data.List.Perm.Lattice
import Mathlib.Logic.Function.Basic

/-!
# Deserialization

Types are read in two parts. The implementation for a type asks a deserializer for a shape, and the
deserializer answers with what it has, which may be something else than was asked for; the
implementation then makes a value of it, or an error.

A record is read from the entries of a map or from the elements of a sequence. From a map it is read
exactly if each field has at most one entry and there is a value for each of them, and entries of
other names do not count (`Record.visitMap_eq_ok_iff`), so the order of the entries does not matter
(`Record.reads_perm`). From a sequence it is read exactly from as many elements as it has fields,
and further elements do not count (`Record.visitSeq_eq_ok_iff`).

The record is one whose implementation was derived without further attributes: unknown fields are
skipped, every field has its own entry, and a missing one may still have a value, if its type says
so. The fields are of an index type with a type of values for each of them, and a record that is
read is a function on the fields. The reader goes through the entries and fills the fields; an
induction on the entries relates where it ends to what the entries say about each field.
-/

namespace Serde

/-- The floating-point types and their parsers. -/
class FloatLib where
  F32 : Type
  F64 : Type
  parseF32 : Str → Option F32
  parseF64 : Str → Option F64

/-- The shapes an implementation may ask for. -/
inductive Hint
  | any | bool | int (type : IntType) | f32 | f64 | char | str | string | bytes | byteBuf | option
  | unit | unitStruct | newtypeStruct | seq | tuple | tupleStruct | map | struct | enum | identifier
  | ignoredAny
  deriving DecidableEq

/-- The method of a deserializer that is called for a shape. -/
def Hint.method : Hint → Str
  | any => "deserialize_any".toList
  | bool => "deserialize_bool".toList
  | int type => "deserialize_".toList ++ type.name
  | f32 => "deserialize_f32".toList
  | f64 => "deserialize_f64".toList
  | char => "deserialize_char".toList
  | str => "deserialize_str".toList
  | string => "deserialize_string".toList
  | bytes => "deserialize_bytes".toList
  | byteBuf => "deserialize_byte_buf".toList
  | option => "deserialize_option".toList
  | unit => "deserialize_unit".toList
  | unitStruct => "deserialize_unit_struct".toList
  | newtypeStruct => "deserialize_newtype_struct".toList
  | seq => "deserialize_seq".toList
  | tuple => "deserialize_tuple".toList
  | tupleStruct => "deserialize_tuple_struct".toList
  | map => "deserialize_map".toList
  | struct => "deserialize_struct".toList
  | enum => "deserialize_enum".toList
  | identifier => "deserialize_identifier".toList
  | ignoredAny => "deserialize_ignored_any".toList

/-- What a deserializer answers. A sequence and a map are what their accesses give in order, and an
enumeration is where the name of its variant is read from. -/
inductive Visit (D : Type) [FloatLib]
  | bool (b : Bool)
  | int (type : IntType) (n : ℤ)
  | f32 (x : FloatLib.F32)
  | f64 (x : FloatLib.F64)
  | char (c : Char)
  | str (s : Str)
  | some (inner : D)
  | newtypeStruct (inner : D)
  | seq (elements : List D)
  | map (entries : List (D × D))
  | enum (variant : D)

/-- A deserializer, with the errors that are made of it. -/
class Deserializer (D : Type) (ε : outParam Type) [FloatLib] where
  deserialize : D → Hint → Except ε (Visit D)
  custom : Str → ε
  duplicateField : Str → ε
  missingField : Str → ε
  invalidLength : ℕ → Str → ε

/-- The implementation for a type: what it asks for, and what it makes of an answer. -/
structure Deserialize (D ε α : Type) [FloatLib] where
  hint : Hint
  visit : Visit D → Except ε α

variable {D ε : Type} [FloatLib] [Deserializer D ε]

/-- Read a value. -/
def Deserialize.deserialize {α : Type} (self : Deserialize D ε α) (source : D) : Except ε α := do
  let answer ← Deserializer.deserialize source self.hint
  self.visit answer

/-! ### Records -/

/-- The fields of a record, in the order of their declaration. -/
structure Record (D ε : Type) [FloatLib] (ι : Type) (β : ι → Type) where
  /-- What is expected, for the errors. -/
  expecting : Str
  fields : List ι
  mem_fields : ∀ i, i ∈ fields
  nodup : fields.Nodup
  name : ι → Str
  name_injective : Function.Injective name
  read : ∀ i, Deserialize D ε (β i)
  /-- The value of a field without an entry, for the types that have one. -/
  absent : ∀ i, Option (β i)

namespace Record

variable {ι : Type} [DecidableEq ι] {β : ι → Type} (self : Record D ε ι β)

/-- What was read so far. -/
abbrev Found (β : ι → Type) : Type :=
  ∀ i, Option (β i)

/-- The field of a name. -/
def fieldOf (name : Str) : Option ι :=
  self.fields.find? fun i ↦ self.name i = name

/-- The name that is the key of an entry. -/
def identifier (key : D) : Except ε Str := do
  match ← Deserializer.deserialize key .identifier with
  | .str s => .ok s
  | _ => .error (Deserializer.custom D "expected field identifier".toList)

/-- Read the entries of a map one after another; the value of an unknown one is skipped. -/
def readEntries : List (D × D) → Found β → Except ε (Found β)
  | [], found => .ok found
  | (key, value) :: rest, found => do
    match self.fieldOf (← identifier key) with
    | some i =>
      if (found i).isSome then .error (Deserializer.duplicateField D (self.name i))
      else
        let v ← (self.read i).deserialize value
        readEntries rest (Function.update found i (some v))
    | none =>
      let _ ← Deserializer.deserialize value .ignoredAny
      readEntries rest found

/-- The record, if there is a value for every field. -/
def finish (absent : Found β) (found : Found β) : Except ε (∀ i, β i) :=
  if h : ∀ i ∈ self.fields, ((found i).or (absent i)).isSome then
    .ok fun i ↦ ((found i).or (absent i)).get (h i (self.mem_fields i))
  else
    .error (Deserializer.missingField D
      (((self.fields.find? fun i ↦ ((found i).or (absent i)).isNone).map self.name).getD []))

/-- Read a record from the entries of a map. -/
def visitMap (entries : List (D × D)) : Except ε (∀ i, β i) := do
  let found ← self.readEntries entries fun _ ↦ none
  self.finish self.absent found

/-- Read the elements of a sequence, one for each field; what is left is not looked at. -/
def readElements : List ι → List D → Found β → Except ε (Found β)
  | [], _, found => .ok found
  | i :: fields, [], _ =>
    .error (Deserializer.invalidLength D (self.fields.length - (i :: fields).length)
      self.expecting)
  | i :: fields, element :: elements, found => do
    let v ← (self.read i).deserialize element
    readElements fields elements (Function.update found i (some v))

/-- Read a record from the elements of a sequence. -/
def visitSeq (elements : List D) : Except ε (∀ i, β i) := do
  let found ← self.readElements self.fields elements fun _ ↦ none
  self.finish (fun _ ↦ none) found

/-! ### What is read -/

section Entries

variable {self}

/-- What the entries of a field make of its value: a field has one entry at most. -/
def Fills (self : Record D ε ι β) (i : ι) (found found' : Option (β i)) : List D → Prop
  | [] => found' = found
  | [d] => found = none ∧ ∃ v, (self.read i).deserialize d = .ok v ∧ found' = some v
  | _ => False

/-- A field has its value from its one entry, or the value of a field without an entry. -/
def Reads (self : Record D ε ι β) (i : ι) (v : β i) : List D → Prop
  | [] => self.absent i = some v
  | [d] => (self.read i).deserialize d = .ok v
  | _ => False

/-- The entries of a field. -/
def given (self : Record D ε ι β) (i : ι) (params : List (Str × D)) : List D :=
  (params.filter fun p ↦ p.1 = self.name i).map Prod.snd

omit [DecidableEq ι] [Deserializer D ε] in
theorem fieldOf_eq_some_iff {name : Str} {i : ι} :
    self.fieldOf name = some i ↔ name = self.name i := by
  constructor
  · intro h
    have hname := List.find?_some (p := fun j ↦ decide (self.name j = name)) h
    exact (of_decide_eq_true hname).symm
  · rintro rfl
    rcases h : self.fieldOf (self.name i) with - | j
    · exact absurd (decide_eq_true rfl) (List.find?_eq_none.1 h i (self.mem_fields i))
    · have hname := List.find?_some (p := fun k ↦ decide (self.name k = self.name i)) h
      rw [self.name_injective (of_decide_eq_true hname)]

omit [DecidableEq ι] [Deserializer D ε] in
theorem given_cons_of_eq {i : ι} {p : Str × D} (h : p.1 = self.name i)
    (params : List (Str × D)) : self.given i (p :: params) = p.2 :: self.given i params := by
  have hkept : (p :: params).filter (fun q ↦ q.1 = self.name i) =
      p :: params.filter fun q ↦ q.1 = self.name i :=
    List.filter_cons_of_pos (decide_eq_true h)
  rw [given, hkept]
  rfl

omit [DecidableEq ι] [Deserializer D ε] in
theorem given_cons_of_ne {i : ι} {p : Str × D} (h : p.1 ≠ self.name i)
    (params : List (Str × D)) : self.given i (p :: params) = self.given i params := by
  rw [given, List.filter_cons_of_neg (by simpa using h)]
  rfl

omit [DecidableEq ι] in
theorem fills_cons_iff {i : ι} {v : β i} {found' : Option (β i)} {d : D} {ds : List D}
    (hread : (self.read i).deserialize d = .ok v) :
    self.Fills i none found' (d :: ds) ↔ self.Fills i (some v) found' ds := by
  rcases ds with - | ⟨d', - | ⟨d'', ds⟩⟩
  · show (none = none ∧ ∃ v', _ = _ ∧ found' = some v') ↔ found' = some v
    rw [hread]
    constructor
    · rintro ⟨-, v', hv, rfl⟩
      rw [Except.ok.inj hv]
    · exact fun h ↦ ⟨rfl, v, rfl, h⟩
  · exact iff_of_false id fun h ↦ Option.some_ne_none _ h.1
  · rfl

/-- A map whose keys are names, and whose values can be skipped. -/
structure Keyed (key : Str → D) (params : List (Str × D)) : Prop where
  identifier : ∀ s, Record.identifier (key s) = .ok s
  skips : ∀ p ∈ params, ∃ answer, Deserializer.deserialize p.2 .ignoredAny = .ok answer

/-- The entries of a map. -/
abbrev entries (key : Str → D) (params : List (Str × D)) : List (D × D) :=
  params.map fun p ↦ (key p.1, p.2)

omit [DecidableEq ι] in
theorem Keyed.tail {key : Str → D} {p : Str × D} {params : List (Str × D)}
    (h : Keyed key (p :: params)) : Keyed key params :=
  ⟨h.identifier, fun q hq ↦ h.skips q (List.mem_cons_of_mem _ hq)⟩

omit [DecidableEq ι] in
theorem not_fills_some_cons {i : ι} {v : β i} {found' : Option (β i)} {d : D} {ds : List D} :
    ¬ self.Fills i (some v) found' (d :: ds) := by
  rcases ds with - | ⟨d', ds⟩
  · exact fun h ↦ Option.some_ne_none _ h.1
  · exact id

omit [DecidableEq ι] in
/-- An entry that cannot be read fills no field. -/
theorem not_fills_of_error {i : ι} {found found' : Option (β i)} {d : D} {ds : List D} {e : ε}
    (hread : (self.read i).deserialize d = .error e) :
    ¬ self.Fills i found found' (d :: ds) := by
  rcases ds with - | ⟨d', ds⟩
  · rintro ⟨-, v, hv, -⟩
    exact nomatch hread.symm.trans hv
  · exact id

theorem readEntries_unknown {key : Str → D} {name : Str} {d : D} {params : List (Str × D)}
    (hkeyed : Keyed key ((name, d) :: params)) (hname : ∀ i, name ≠ self.name i)
    (found : Found β) :
    self.readEntries (entries key ((name, d) :: params)) found =
      self.readEntries (entries key params) found := by
  have hfield : self.fieldOf name = none := by
    rcases h : self.fieldOf name with - | i
    · rfl
    · exact absurd (fieldOf_eq_some_iff.1 h) (hname i)
  obtain ⟨answer, hskip⟩ := hkeyed.skips _ List.mem_cons_self
  show (Record.identifier (key name) >>= fun name ↦ _) = _
  rw [hkeyed.identifier]
  show (match self.fieldOf name with
    | some i => _
    | none => Deserializer.deserialize d .ignoredAny >>= fun _ ↦ _) = _
  rw [hfield, hskip]
  rfl

theorem readEntries_known {key : Str → D} {name : Str} {d : D} {params : List (Str × D)}
    (hkeyed : Keyed key ((name, d) :: params)) {j : ι} (hname : name = self.name j)
    (found : Found β) :
    self.readEntries (entries key ((name, d) :: params)) found =
      if (found j).isSome then .error (Deserializer.duplicateField D (self.name j))
      else (self.read j).deserialize d >>= fun v ↦
        self.readEntries (entries key params) (Function.update found j (some v)) := by
  show (Record.identifier (key name) >>= fun name ↦ _) = _
  rw [hkeyed.identifier]
  show (match self.fieldOf name with
    | some i => if (found i).isSome then _ else (self.read i).deserialize d >>= fun v ↦ _
    | none => _) = _
  rw [fieldOf_eq_some_iff.2 hname]

/-- The entries are read exactly if they fill each field on its own. -/
theorem readEntries_eq_ok_iff {key : Str → D} {params : List (Str × D)}
    (hkeyed : Keyed key params) {found found' : Found β} :
    self.readEntries (entries key params) found = .ok found' ↔
      ∀ i, self.Fills i (found i) (found' i) (self.given i params) := by
  induction params generalizing found with
  | nil =>
    show Except.ok found = .ok found' ↔ ∀ i, found' i = found i
    rw [Except.ok.injEq, eq_comm, funext_iff]
  | cons p params ih =>
    obtain ⟨name, d⟩ := p
    by_cases hknown : ∃ j, name = self.name j
    · obtain ⟨j, hname⟩ := hknown
      have hother : ∀ i, i ≠ j → self.given i ((name, d) :: params) = self.given i params :=
        fun i hi ↦ given_cons_of_ne (fun h ↦ hi (self.name_injective (h.symm.trans hname))) params
      have hself := given_cons_of_eq (p := (name, d)) hname params
      rw [readEntries_known hkeyed hname]
      rcases hj : found j with - | v₀
      · rw [if_neg (by simp)]
        rcases hread : (self.read j).deserialize d with e | v
        · exact iff_of_false (fun h ↦ nomatch h) fun h ↦ not_fills_of_error hread (hself ▸ h j)
        · -- the field is filled, and whatever else is given for it is a duplicate
          refine (ih hkeyed.tail).trans (forall_congr' fun i ↦ ?_)
          rcases eq_or_ne i j with rfl | hi
          · rw [Function.update_self, hj, hself, fills_cons_iff hread]
          · rw [Function.update_of_ne hi, hother i hi]
      · rw [if_pos (by simp)]
        refine iff_of_false (fun h ↦ nomatch h) fun h ↦ ?_
        have hfill := h j
        rw [hj, hself] at hfill
        exact not_fills_some_cons hfill
    · rw [not_exists] at hknown
      rw [readEntries_unknown hkeyed hknown, ih hkeyed.tail]
      exact forall_congr' fun i ↦ by rw [given_cons_of_ne (hknown i)]

omit [DecidableEq ι] in
theorem finish_eq_ok_iff {absent found : Found β} {r : ∀ i, β i} :
    self.finish absent found = .ok r ↔ ∀ i, (found i).or (absent i) = some (r i) := by
  rw [finish]
  split_ifs with h
  · rw [Except.ok.injEq, funext_iff]
    refine forall_congr' fun i ↦ ?_
    rw [Option.eq_some_iff_get_eq, exists_prop_of_true (h i (self.mem_fields i))]
  · refine iff_of_false (fun heq ↦ nomatch heq) fun hall ↦ h fun i _ ↦ ?_
    rw [hall i, Option.isSome_some]

/-- **Maps**: a record is read exactly if every field has its value from its one entry, or is
without an entry and has a value for that. -/
theorem visitMap_eq_ok_iff {key : Str → D} {params : List (Str × D)}
    (hkeyed : Keyed key params) {r : ∀ i, β i} :
    self.visitMap (entries key params) = .ok r ↔
      ∀ i, self.Reads i (r i) (self.given i params) := by
  have hbind : self.visitMap (entries key params) = .ok r ↔
      ∃ found, self.readEntries (entries key params) (fun _ ↦ none) = .ok found ∧
        self.finish self.absent found = .ok r := by
    rw [visitMap]
    rcases self.readEntries (entries key params) (fun _ ↦ none) with e | found
    · exact iff_of_false (fun h ↦ nomatch h) fun ⟨_, h, _⟩ ↦ nomatch h
    · exact ⟨fun h ↦ ⟨found, rfl, h⟩, fun ⟨_, hfound, h⟩ ↦ Except.ok.inj hfound ▸ h⟩
  rw [hbind]
  constructor
  · rintro ⟨found, hfound, hfinish⟩ i
    have hfill := (readEntries_eq_ok_iff hkeyed).1 hfound i
    have hvalue := finish_eq_ok_iff.1 hfinish i
    generalize self.given i params = ds at hfill ⊢
    rcases ds with - | ⟨d, - | ⟨d', ds⟩⟩
    · rw [show found i = none from hfill, Option.none_or] at hvalue
      exact hvalue
    · obtain ⟨-, v, hv, hsome⟩ := hfill
      rw [hsome, Option.some_or] at hvalue
      exact hv.trans (congrArg _ (Option.some.inj hvalue))
    · exact hfill
  · intro h
    refine ⟨fun i ↦ if self.given i params = [] then none else some (r i),
      (readEntries_eq_ok_iff hkeyed).2 fun i ↦ ?_, finish_eq_ok_iff.2 fun i ↦ ?_⟩
    · have hi := h i
      generalize self.given i params = ds at hi ⊢
      rcases ds with - | ⟨d, - | ⟨d', ds⟩⟩
      · exact if_pos rfl
      · exact ⟨rfl, r i, hi, if_neg (List.cons_ne_nil _ _)⟩
      · exact hi
    · have hi := h i
      rcases hgiven : self.given i params with - | ⟨d, ds⟩
      · rw [hgiven] at hi
        rw [if_pos rfl, Option.none_or]
        exact hi
      · rw [if_neg (List.cons_ne_nil _ _), Option.some_or]

omit [DecidableEq ι] in
/-- The order of the entries of a field does not matter. -/
theorem reads_perm {i : ι} {v : β i} {ds ds' : List D} (h : ds.Perm ds') :
    self.Reads i v ds ↔ self.Reads i v ds' := by
  rcases ds with - | ⟨d, - | ⟨d', ds⟩⟩
  · rw [List.nil_perm.1 h]
  · rw [List.singleton_perm.1 h]
  · have hlen := h.length_eq
    rcases ds' with - | ⟨e, - | ⟨e', ds'⟩⟩
    · exact absurd hlen (by simp)
    · exact absurd hlen (by simp)
    · rfl

end Entries

section Elements

variable {self}

/-- What the elements make of the value of a field: the one in its place, if it is a field. -/
def Takes (self : Record D ε ι β) (fields : List ι) (elements : List D) (i : ι)
    (found found' : Option (β i)) : Prop :=
  (i ∉ fields ∧ found' = found) ∨
    ∃ d v, i ∈ fields ∧ elements[fields.idxOf i]? = some d ∧
      (self.read i).deserialize d = .ok v ∧ found' = some v

theorem takes_cons_self {i : ι} {fields : List ι} {d : D} {elements : List D}
    {found found' : Option (β i)} : self.Takes (i :: fields) (d :: elements) i found found' ↔
      ∃ v, (self.read i).deserialize d = .ok v ∧ found' = some v := by
  rw [Takes, or_iff_right fun h ↦ h.1 List.mem_cons_self]
  rw [List.idxOf_cons_self, List.getElem?_cons_zero]
  constructor
  · rintro ⟨d', v, -, hd, hv, hfound⟩
    exact ⟨v, Option.some.inj hd ▸ hv, hfound⟩
  · rintro ⟨v, hv, hfound⟩
    exact ⟨d, v, List.mem_cons_self, rfl, hv, hfound⟩

theorem takes_cons_of_ne {i j : ι} (hij : j ≠ i) {fields : List ι} {d : D} {elements : List D}
    {found found' : Option (β j)} : self.Takes (i :: fields) (d :: elements) j found found' ↔
      self.Takes fields elements j found found' := by
  simp only [Takes, List.mem_cons, hij, false_or, List.idxOf_cons_ne _ hij.symm,
    List.getElem?_cons_succ]

/-- The elements are read exactly if there is one for each field. -/
theorem readElements_eq_ok_iff {fields : List ι} (hnd : fields.Nodup) {elements : List D}
    {found found' : Found β} :
    self.readElements fields elements found = .ok found' ↔
      ∀ i, self.Takes fields elements i (found i) (found' i) := by
  induction fields generalizing elements found with
  | nil =>
    show Except.ok found = .ok found' ↔ _
    rw [Except.ok.injEq, eq_comm, funext_iff]
    refine forall_congr' fun i ↦ ?_
    simp [Takes]
  | cons j fields ih =>
    obtain ⟨hj, hnd⟩ := List.nodup_cons.1 hnd
    rcases elements with - | ⟨d, elements⟩
    · refine iff_of_false (fun h ↦ nomatch h) fun h ↦ ?_
      rcases h j with ⟨hmem, -⟩ | ⟨d, v, -, hd, -⟩
      · exact hmem List.mem_cons_self
      · exact nomatch hd
    · show ((self.read j).deserialize d >>= fun v ↦ _) = _ ↔ _
      rcases hread : (self.read j).deserialize d with e | v
      · refine iff_of_false (fun h ↦ nomatch h) fun h ↦ ?_
        obtain ⟨v, hv, -⟩ := takes_cons_self.1 (h j)
        exact nomatch hread.symm.trans hv
      · refine (ih hnd).trans (forall_congr' fun i ↦ ?_)
        rcases eq_or_ne i j with rfl | hi
        · rw [takes_cons_self, hread, Function.update_self, Takes]
          constructor
          · rintro (⟨-, hv⟩ | ⟨-, -, hmem, -⟩)
            · exact ⟨v, rfl, hv⟩
            · exact absurd hmem hj
          · rintro ⟨v', hv, hfound⟩
            exact .inl ⟨hj, Except.ok.inj hv ▸ hfound⟩
        · rw [takes_cons_of_ne hi, Function.update_of_ne hi]

/-- **Sequences**: a record is read exactly if each field can be read from the element in its
place. -/
theorem visitSeq_eq_ok_iff {elements : List D} {r : ∀ i, β i} :
    self.visitSeq elements = .ok r ↔
      ∀ i, ∃ d, elements[self.fields.idxOf i]? = some d ∧
        (self.read i).deserialize d = .ok (r i) := by
  have hfinish : ∀ found : Found β, self.finish (fun _ ↦ none) found = .ok r ↔
      found = fun i ↦ some (r i) := fun found ↦ by
    simp only [finish_eq_ok_iff, Option.or_none, funext_iff]
  have hbind : self.visitSeq elements = .ok r ↔
      self.readElements self.fields elements (fun _ ↦ none) = .ok fun i ↦ some (r i) := by
    rw [visitSeq]
    rcases self.readElements self.fields elements (fun _ ↦ none) with e | found
    · exact iff_of_false (fun h ↦ nomatch h) fun h ↦ nomatch h
    · exact (hfinish found).trans (Except.ok.injEq _ _).to_iff.symm
  rw [hbind, readElements_eq_ok_iff self.nodup]
  refine forall_congr' fun i ↦ ?_
  rw [Takes, or_iff_right fun h ↦ h.1 (self.mem_fields i)]
  constructor
  · rintro ⟨d, v, -, hd, hv, heq⟩
    exact ⟨d, hd, Option.some.inj heq ▸ hv⟩
  · rintro ⟨d, hd, hv⟩
    exact ⟨d, r i, self.mem_fields i, hd, hv, rfl⟩

end Elements

end Record

end Serde
