import Arvik.Core.Json
import Arvik.Foundation.DottedPath

/-!
# Validation reports

A failed validation is a tree of errors: a struct maps names to nodes, a node is a list of errors, a
struct again, or a list of structs by index. `collect_validation_errors` walks it into a flat list
with one path for each error, and drops the raw input from the parameters.

`ReportsAll` is what the report is for: it is complete, its paths tell the positions of the tree
apart, and the rejected value is not in it. The path is built with the empty text for the root, and
that is taken for the root also where it is the name of a field: `reportsAll_iff` says in which
trees this is seen.

The walk is three functions that call each other, and so is the list of leaves it is compared with;
one induction on the tree, with a case for each, shows that the report has an entry for each leaf,
under a path built from its position (`collectValidationErrors_eq`). Then it is about paths only:
building one step by step and rendering it are compared, and they differ where the text of a front
of the path is empty although it has a step (`builtPath_eq_render_iff`).
-/

open DottedPath (Step Position render suffixes)

/-! ### Errors -/

/-- An error of one field. The parameters are in the order in which their map is iterated. -/
structure ValidationError where
  code : Str
  message : Option Str := none
  params : List (Str × JsonText.Value) := []

/-- What is found under a name. A struct is a list of names with what is under them, in the order in
which its map is iterated. -/
inductive ValidationErrorsKind
  | struct (errors : List (Str × ValidationErrorsKind))
  | list (items : List (ℕ × List (Str × ValidationErrorsKind)))
  | field (errors : List ValidationError)

/-- The errors of a struct. -/
abbrev ValidationErrors := List (Str × ValidationErrorsKind)

/-! ### The report -/

/-- A field-level error as it is reported. -/
structure ValidationFieldError where
  field : Str
  code : Str
  message : Option Str
  params : List (Str × JsonText.Value)

/-- Insert into a map that is kept in the order of its keys. -/
def insertParam (key : Str) (value : JsonText.Value) :
    List (Str × JsonText.Value) → List (Str × JsonText.Value)
  | [] => [(key, value)]
  | (k, v) :: params =>
    if key < k then (key, value) :: (k, v) :: params
    else if key = k then (key, value) :: params
    else (k, v) :: insertParam key value params

/-- The parameters without the raw input. -/
def sanitizeParams (params : List (Str × JsonText.Value)) : List (Str × JsonText.Value) :=
  (params.filter fun param ↦ param.1 ≠ "value".toList).foldl
    (fun map param ↦ insertParam param.1 param.2 map) []

/-- The path of a field in a struct; the struct at the root has the empty path. -/
def joinPath (pre field : Str) : Str :=
  if pre.isEmpty then field else pre ++ '.' :: field

/-- The path of an item in a list. -/
def itemPath (path : Str) (index : ℕ) : Str :=
  path ++ '[' :: Nat.toDigits 10 index ++ [']']

/-- An error of the field with a path. -/
def fieldError (path : Str) (error : ValidationError) : ValidationFieldError where
  field := path
  code := error.code
  message := error.message
  params := sanitizeParams error.params

mutual

/-- The errors of a struct with a path. -/
def collectValidationErrors (pre : Str) : List (Str × ValidationErrorsKind) →
    List ValidationFieldError
  | [] => []
  | (field, kind) :: errors =>
    collectKind (joinPath pre field) kind ++ collectValidationErrors pre errors

/-- The errors of a node with a path. -/
def collectKind (path : Str) : ValidationErrorsKind → List ValidationFieldError
  | .field errors => errors.map (fieldError path)
  | .struct errors => collectValidationErrors path errors
  | .list items => collectItems path items

/-- The errors of the items of a list with a path. -/
def collectItems (path : Str) : List (ℕ × List (Str × ValidationErrorsKind)) →
    List ValidationFieldError
  | [] => []
  | (index, errors) :: items =>
    collectValidationErrors (itemPath path index) errors ++ collectItems path items

end

/-- The body of the response to a failed validation. -/
structure ValidationProblem where
  error : Str
  message : Str
  fields : List ValidationFieldError

/-- The report of a tree of errors. -/
def ValidationProblem.ofErrors (errors : ValidationErrors) : ValidationProblem where
  error := "validation_failed".toList
  message := "Request validation failed".toList
  fields := collectValidationErrors [] errors

/-- A message and parameters are left out if there are none. -/
def ValidationFieldError.toValue (self : ValidationFieldError) : JsonText.Value :=
  .object ([("field".toList, .string self.field), ("code".toList, .string self.code)] ++
    (self.message.map fun message ↦ ("message".toList, JsonText.Value.string message)).toList ++
    (if self.params.isEmpty then [] else [("params".toList, .object self.params)]))

instance : Serialize ValidationProblem where
  serialize self := .ok (.object [("error".toList, .string self.error),
    ("message".toList, .string self.message),
    ("fields".toList, .array (self.fields.map ValidationFieldError.toValue))])

namespace ValidationErrors

/-! ### What is to be reported -/

/-- An error with its position in the tree. -/
structure Leaf where
  position : Position
  error : ValidationError

mutual

/-- The errors below a struct at a position, each with its own position. -/
def leaves (pos : Position) : List (Str × ValidationErrorsKind) → List Leaf
  | [] => []
  | (name, kind) :: errors => kindLeaves (pos ++ [.name name]) kind ++ leaves pos errors

/-- The errors below a node at a position. -/
def kindLeaves (pos : Position) : ValidationErrorsKind → List Leaf
  | .field errors => errors.map fun error ↦ ⟨pos, error⟩
  | .struct errors => leaves pos errors
  | .list items => itemLeaves pos items

/-- The errors below the items of a list at a position. -/
def itemLeaves (pos : Position) : List (ℕ × List (Str × ValidationErrorsKind)) → List Leaf
  | [] => []
  | (index, errors) :: items => leaves (pos ++ [.index index]) errors ++ itemLeaves pos items

end

/-- The report has one entry for each error, with its code, its message and the path of its
position; positions with clear names have paths of their own; and no entry has the raw input among
its parameters. -/
structure ReportsAll (errors : ValidationErrors) : Prop where
  complete : (ValidationProblem.ofErrors errors).fields.map
      (fun entry ↦ (entry.field, entry.code, entry.message)) =
    (leaves [] errors).map fun leaf ↦
      (render leaf.position, leaf.error.code, leaf.error.message)
  distinct : ∀ a ∈ (leaves [] errors).zip (ValidationProblem.ofErrors errors).fields,
    ∀ b ∈ (leaves [] errors).zip (ValidationProblem.ofErrors errors).fields,
      (∀ step ∈ a.1.position, step.Clear) → (∀ step ∈ b.1.position, step.Clear) →
        a.1.position ≠ b.1.position → a.2.field ≠ b.2.field
  redacted : ∀ entry ∈ (ValidationProblem.ofErrors errors).fields,
    "value".toList ∉ entry.params.map Prod.fst

/-! ### One entry for each error -/

/-- One step of a path. -/
def extendPath (path : Str) : Step → Str
  | .name s => joinPath path s
  | .index i => itemPath path i

/-- The path that is built for a position. -/
def builtPath (pos : Position) : Str :=
  pos.foldl extendPath []

theorem builtPath_concat (pos : Position) (step : Step) :
    builtPath (pos ++ [step]) = extendPath (builtPath pos) step :=
  List.foldl_concat _ _ _ _

/-- What is reported for an error. -/
def Leaf.entry (self : Leaf) : ValidationFieldError :=
  fieldError (builtPath self.position) self.error

mutual

/-- The walk over the tree emits the entries of its errors. -/
theorem collectValidationErrors_eq (pos : Position) :
    ∀ errors : List (Str × ValidationErrorsKind),
      collectValidationErrors (builtPath pos) errors = (leaves pos errors).map Leaf.entry
  | [] => rfl
  | (name, kind) :: errors => by
    have hkind := collectKind_eq (pos ++ [.name name]) kind
    rw [builtPath_concat] at hkind
    rw [leaves, List.map_append, ← hkind, ← collectValidationErrors_eq pos errors]
    rfl

theorem collectKind_eq (pos : Position) : ∀ kind : ValidationErrorsKind,
    collectKind (builtPath pos) kind = (kindLeaves pos kind).map Leaf.entry
  | .field errors => by
    rw [kindLeaves, List.map_map]
    rfl
  | .struct errors => collectValidationErrors_eq pos errors
  | .list items => collectItems_eq pos items

theorem collectItems_eq (pos : Position) :
    ∀ items : List (ℕ × List (Str × ValidationErrorsKind)),
      collectItems (builtPath pos) items = (itemLeaves pos items).map Leaf.entry
  | [] => rfl
  | (index, errors) :: items => by
    have herrors := collectValidationErrors_eq (pos ++ [.index index]) errors
    rw [builtPath_concat] at herrors
    rw [itemLeaves, List.map_append, ← herrors, ← collectItems_eq pos items]
    rfl

end

theorem fields_ofErrors (errors : ValidationErrors) :
    (ValidationProblem.ofErrors errors).fields = (leaves [] errors).map Leaf.entry :=
  collectValidationErrors_eq [] errors

/-! ### The paths -/

/-- A path that is not empty is continued as it should be. -/
theorem foldl_extendPath {path : Str} (hpath : path ≠ []) (pos : Position) :
    pos.foldl extendPath path = path ++ suffixes pos := by
  induction pos generalizing path with
  | nil => exact (List.append_nil path).symm
  | cons step pos ih =>
    have hstep : extendPath path step = path ++ step.suffix := by
      rcases step with s | i
      · exact if_neg (by simpa using hpath)
      · exact List.append_assoc path ('[' :: Nat.toDigits 10 i) [']']
    have hne : path ++ step.suffix ≠ [] := List.append_ne_nil_of_left_ne_nil hpath _
    rw [List.foldl_cons, hstep, ih hne, List.append_assoc]
    rfl

/-- No path gets longer than it should. -/
theorem length_foldl_extendPath_le (path : Str) (pos : Position) :
    (pos.foldl extendPath path).length ≤ path.length + (suffixes pos).length := by
  rcases eq_or_ne path [] with rfl | hpath
  · induction pos with
    | nil => exact Nat.le_refl 0
    | cons step pos ih =>
      rw [List.foldl_cons]
      rcases eq_or_ne (extendPath [] step) [] with hnil | hne
      · rw [hnil]
        refine Nat.le_trans ih (Nat.add_le_add_left ?_ _)
        show (suffixes pos).length ≤ (step.suffix ++ suffixes pos).length
        rw [List.length_append]
        exact Nat.le_add_left _ _
      · rw [foldl_extendPath hne, List.length_append, List.length_nil, Nat.zero_add]
        show _ ≤ (step.suffix ++ suffixes pos).length
        rw [List.length_append]
        refine Nat.add_le_add_right ?_ _
        rcases step with s | i
        · exact Nat.le_succ _
        · exact Nat.le_refl _
  · exact Nat.le_of_eq (by rw [foldl_extendPath hpath, List.length_append])

/-- **The path that is built** is the path of the position, but for an empty name that is directly
followed by another name. -/
theorem builtPath_eq_render_iff (pos : Position) :
    builtPath pos = render pos ↔ ∀ s rest, pos ≠ .name [] :: .name s :: rest := by
  have hindex : ∀ (i : ℕ) (rest : Position),
      (Step.index i :: rest).foldl extendPath [] = suffixes (.index i :: rest) := fun i rest ↦ by
    have hne : extendPath [] (.index i) ≠ [] := List.cons_ne_nil _ _
    rw [List.foldl_cons, foldl_extendPath hne]
    rfl
  rcases pos with - | ⟨s | i, rest⟩
  · exact iff_of_true rfl fun s rest ↦ by simp
  · rcases eq_or_ne s [] with rfl | hs
    · rcases rest with - | ⟨s | i, rest⟩
      · exact iff_of_true rfl fun s rest ↦ by simp
      · -- the dot between the two names is missing
        refine iff_of_false (fun h ↦ ?_) fun h ↦ h s rest rfl
        have hle := length_foldl_extendPath_le s rest
        have hlength : (rest.foldl extendPath s).length = (suffixes (.name s :: rest)).length :=
          congrArg List.length h
        have hdot : (suffixes (.name s :: rest)).length = s.length + 1 + (suffixes rest).length :=
          List.length_append
        omega
      · exact iff_of_true (hindex i rest) fun s rest ↦ by simp
    · exact iff_of_true (foldl_extendPath hs rest) fun t rest h ↦
        hs (Step.name.inj (List.cons.inj h).1)
  · exact iff_of_true (hindex i rest) fun s rest ↦ by simp

/-! ### The parameters -/

theorem mem_insertParam {key : Str} {value : JsonText.Value} {params : List (Str × JsonText.Value)}
    {k : Str} (h : k ∈ (insertParam key value params).map Prod.fst) :
    k = key ∨ k ∈ params.map Prod.fst := by
  induction params with
  | nil => exact .inl (List.mem_singleton.1 h)
  | cons param params ih =>
    rw [insertParam] at h
    split at h
    · exact List.mem_cons.1 h
    · split at h
      · exact (List.mem_cons.1 h).imp_right (List.mem_cons_of_mem _)
      · rcases List.mem_cons.1 h with rfl | hmem
        · exact .inr List.mem_cons_self
        · exact (ih hmem).imp_right (List.mem_cons_of_mem _)

/-- The raw input is not among the parameters that are reported. -/
theorem value_not_mem_sanitizeParams (params : List (Str × JsonText.Value)) :
    "value".toList ∉ (sanitizeParams params).map Prod.fst := by
  have hfold : ∀ (kept map : List (Str × JsonText.Value)) (k : Str),
      k ∈ (kept.foldl (fun map param ↦ insertParam param.1 param.2 map) map).map Prod.fst →
        k ∈ kept.map Prod.fst ∨ k ∈ map.map Prod.fst := by
    intro kept
    induction kept with
    | nil => exact fun map k h ↦ .inr h
    | cons param kept ih =>
      intro map k h
      rcases ih _ k h with hkept | hmap
      · exact .inl (List.mem_cons_of_mem _ hkept)
      · rcases mem_insertParam hmap with rfl | hmap
        · exact .inl List.mem_cons_self
        · exact .inr hmap
  intro h
  rcases hfold _ _ _ h with hkept | hnil
  · obtain ⟨param, hparam, hkey⟩ := List.mem_map.1 hkept
    exact of_decide_eq_true (List.mem_filter.1 hparam).2 hkey
  · exact List.not_mem_nil hnil

/-! ### When everything is reported -/

/-- An entry stands for one error. -/
theorem mem_zip_fields {errors : ValidationErrors} {a : Leaf × ValidationFieldError}
    (h : a ∈ (leaves [] errors).zip (ValidationProblem.ofErrors errors).fields) :
    a.2 = a.1.entry ∧ a.1 ∈ leaves [] errors := by
  rw [fields_ofErrors, ← List.map_prod_left_eq_zip, List.mem_map] at h
  obtain ⟨leaf, hmem, rfl⟩ := h
  exact ⟨rfl, hmem⟩

/-- Clear names are not empty. -/
theorem ne_of_clear {pos : Position} (h : ∀ step ∈ pos, step.Clear) (s : Str) (rest : Position) :
    pos ≠ .name [] :: .name s :: rest := by
  rintro rfl
  exact (h _ List.mem_cons_self).1 rfl

/-- **When everything is reported**: no error lies in a struct whose name at the root is empty. Such
a name is taken for the root itself, so the path of the error lacks its first step. -/
theorem reportsAll_iff (errors : ValidationErrors) :
    ReportsAll errors ↔ ∀ leaf ∈ leaves [] errors, ∀ s rest,
      leaf.position ≠ .name [] :: .name s :: rest := by
  constructor
  · intro h leaf hleaf
    have hcomplete := h.complete
    rw [fields_ofErrors, List.map_map, List.map_inj_left] at hcomplete
    exact (builtPath_eq_render_iff _).1 (Prod.mk.inj (hcomplete leaf hleaf)).1
  · intro h
    refine ⟨?_, fun a ha b hb hclear hclear' hne heq ↦ ?_, fun entry hentry ↦ ?_⟩
    · rw [fields_ofErrors, List.map_map]
      refine List.map_congr_left fun leaf hleaf ↦ ?_
      exact congrArg (·, _) ((builtPath_eq_render_iff _).2 (h leaf hleaf))
    · rw [(mem_zip_fields ha).1, (mem_zip_fields hb).1] at heq
      have hpaths : builtPath a.1.position = builtPath b.1.position := heq
      rw [(builtPath_eq_render_iff _).2 (ne_of_clear hclear),
        (builtPath_eq_render_iff _).2 (ne_of_clear hclear')] at hpaths
      exact hne (DottedPath.render_injective_of_clear hclear hclear' hpaths)
    · rw [fields_ofErrors, List.mem_map] at hentry
      obtain ⟨leaf, -, rfl⟩ := hentry
      exact value_not_mem_sanitizeParams leaf.error.params

/-- The field `b` of a struct with the empty name is reported as if it were at the root. -/
theorem not_reportsAll_emptyName :
    ¬ ReportsAll [([], .struct [(['b'], .field [{ code := "email".toList }])])] := by
  intro h
  exact absurd h.complete (by decide)

/-- An error in an item of a list. -/
example : (ValidationProblem.ofErrors [("items".toList,
    .list [(2, [("name".toList, .field [{ code := "length".toList }])])])]).fields.map
      (fun entry ↦ entry.field) = ["items[2].name".toList] := by
  decide

end ValidationErrors
