import Mathlib.Data.List.Pairwise
import Mathlib.Data.List.Perm.Basic
import Mathlib.Order.Lattice

/-!
# Trees of keyed fields

Trees whose inner nodes are maps from keys to trees, with the fields in the order of their keys. Two
operations change a tree: laying another tree over it (`merge`), node by node, and putting a value
at the end of a path (`setPath`), making nodes on the way.

What is at a path afterwards is given path by path. An overlay decides about the paths it defines
(`valueAt_merge_of_get`) and leaves alone those it does not reach (`get_merge_of_forall`). Values
put at paths of which none is in front of another end up there in any order (`putAll_perm`), and
what is apart from all of them stays as it was (`get_putAll_of_apart`).

A tree is a list of fields and not a function, so that trees can be compared and evaluated; the
price is that the order of the fields is an invariant (`Ordered`), which every operation keeps. It
is what makes two trees equal if they have the same fields, and so lets insertions under different
keys be exchanged.

A value and a node exclude each other: an overlay with a value where the tree has a node replaces
the node, and a path through a value finds nothing. Both directions of the results about overlays
speak of this case.
-/

/-! ### Ordered fields -/

namespace KeyedFields

variable {K T : Type} [LinearOrder K]

/-- Put a value under a key, in the order of the keys. -/
def insert (key : K) (value : T) : List (K × T) → List (K × T)
  | [] => [(key, value)]
  | field :: fields =>
    if key < field.1 then (key, value) :: field :: fields
    else if key = field.1 then (key, value) :: fields
    else field :: insert key value fields

theorem lookup_cons (field : K × T) (fields : List (K × T)) (k : K) :
    (field :: fields).lookup k = if k = field.1 then some field.2 else fields.lookup k := by
  rw [List.lookup_cons]
  by_cases h : k = field.1
  · rw [if_pos h, beq_iff_eq.2 h]
  · rw [if_neg h, beq_eq_false_iff_ne.2 h]

@[simp]
theorem lookup_insert (key : K) (value : T) (fields : List (K × T)) (k : K) :
    (insert key value fields).lookup k = if k = key then some value else fields.lookup k := by
  induction fields with
  | nil => rw [insert, lookup_cons]
  | cons field fields ih =>
    rw [insert]
    by_cases hlt : key < field.1
    · rw [if_pos hlt, lookup_cons]
    rw [if_neg hlt]
    by_cases heq : key = field.1
    · rw [if_pos heq, lookup_cons, lookup_cons, ← heq]
      split_ifs <;> rfl
    · rw [if_neg heq, lookup_cons, lookup_cons, ih]
      split_ifs with hfield hkey
      · exact absurd (hkey.symm.trans hfield) heq
      all_goals rfl

theorem insert_insert_self (key : K) (value value' : T) (fields : List (K × T)) :
    insert key value (insert key value' fields) = insert key value fields := by
  induction fields with
  | nil => simp [insert]
  | cons field fields ih =>
    simp only [insert]
    split_ifs with hlt heq
    · simp [insert]
    · simp [insert]
    · rw [insert, if_neg hlt, if_neg heq, ih]

/-- Values of different keys can be put in any order. -/
theorem insert_comm {key key' : K} (h : key ≠ key') (value value' : T) (fields : List (K × T)) :
    insert key value (insert key' value' fields) =
      insert key' value' (insert key value fields) := by
  induction fields with
  | nil => grind [insert]
  | cons field fields ih => grind [insert]

theorem mem_insert {key : K} {value : T} {fields : List (K × T)} {field : K × T}
    (h : field ∈ insert key value fields) : field = (key, value) ∨ field ∈ fields := by
  induction fields with
  | nil => exact .inl (List.mem_singleton.1 h)
  | cons head fields ih =>
    rw [insert] at h
    split_ifs at h
    · exact List.mem_cons.1 h
    · exact (List.mem_cons.1 h).imp_right (List.mem_cons_of_mem _)
    · rcases List.mem_cons.1 h with h | h
      · exact .inr (h ▸ List.mem_cons_self)
      · exact (ih h).imp_right (List.mem_cons_of_mem _)

/-- The keys are increasing. -/
def Ordered (fields : List (K × T)) : Prop :=
  fields.Pairwise fun field field' ↦ field.1 < field'.1

theorem Ordered.insert {fields : List (K × T)} (h : Ordered fields) (key : K) (value : T) :
    Ordered (insert key value fields) := by
  induction h with
  | nil => exact List.pairwise_singleton _ _
  | @cons head fields hhead hfields ih =>
    rw [KeyedFields.insert]
    split_ifs with hlt heq
    · exact (hfields.cons hhead).cons (List.forall_mem_cons.2
        ⟨hlt, fun field hfield ↦ lt_trans hlt (hhead field hfield)⟩)
    · exact hfields.cons (heq ▸ hhead)
    · refine ih.cons fun field hfield ↦ ?_
      rcases mem_insert hfield with rfl | hfield
      · exact lt_of_le_of_ne (not_lt.1 hlt) (Ne.symm heq)
      · exact hhead field hfield

end KeyedFields

/-! ### Trees -/

/-- A value, or fields under keys. -/
inductive KeyedTree (K A : Type)
  | leaf (value : A)
  | node (fields : List (K × KeyedTree K A))

namespace KeyedTree

variable {K A : Type} [LinearOrder K]

/-- The keys of every node are increasing. -/
inductive Ordered : KeyedTree K A → Prop
  | leaf (value : A) : Ordered (.leaf value)
  | node {fields : List (K × KeyedTree K A)} (hkeys : KeyedFields.Ordered fields)
      (hfields : ∀ field ∈ fields, Ordered field.2) : Ordered (.node fields)

/-- The fields of a node; a value has none. -/
def fields : KeyedTree K A → List (K × KeyedTree K A)
  | leaf _ => []
  | node fields => fields

/-- The value, unless it is a node. -/
def leaf? : KeyedTree K A → Option A
  | leaf value => some value
  | node _ => none

/-- The tree at a path. -/
def get (tree : KeyedTree K A) : List K → Option (KeyedTree K A)
  | [] => some tree
  | key :: path => (tree.fields.lookup key).bind fun tree ↦ tree.get path

/-- The value at a path. -/
def valueAt (tree : KeyedTree K A) (path : List K) : Option A :=
  (tree.get path).bind leaf?

/-! ### Overlays -/

mutual

/-- Lay a tree over another one: nodes field by field, where a missing field starts as `null`;
anything else replaces what is there. -/
def merge (null : A) (base : KeyedTree K A) : KeyedTree K A → KeyedTree K A
  | leaf value => leaf value
  | node overlay =>
    match base with
    | leaf _ => node overlay
    | node base => node (mergeFields null base overlay)

/-- Lay the fields of an overlay over the fields of a node, one after the other. -/
def mergeFields (null : A) (base : List (K × KeyedTree K A)) :
    List (K × KeyedTree K A) → List (K × KeyedTree K A)
  | [] => base
  | (key, value) :: overlay =>
    mergeFields null
      (KeyedFields.insert key (merge null ((base.lookup key).getD (leaf null)) value) base) overlay

end

theorem ordered_of_lookup {fields : List (K × KeyedTree K A)}
    (h : ∀ field ∈ fields, field.2.Ordered) {key : K} {tree : KeyedTree K A}
    (hfield : fields.lookup key = some tree) : tree.Ordered := by
  obtain ⟨before, after, rfl, -⟩ := List.lookup_eq_some_iff.1 hfield
  exact h (key, tree) (List.mem_append_right _ List.mem_cons_self)

theorem ordered_getD_lookup {fields : List (K × KeyedTree K A)}
    (h : ∀ field ∈ fields, field.2.Ordered) {default : KeyedTree K A} (hdefault : default.Ordered)
    (key : K) : ((fields.lookup key).getD default).Ordered := by
  rcases hfield : fields.lookup key with - | tree
  · exact hdefault
  · exact ordered_of_lookup h hfield

mutual

/-- Laying an ordered tree over an ordered one keeps the order. -/
theorem Ordered.merge (null : A) {base : KeyedTree K A} :
    (overlay : KeyedTree K A) → base.Ordered → overlay.Ordered →
      (KeyedTree.merge null base overlay).Ordered
  | .leaf value, _, _ => .leaf value
  | .node overlay, hbase, hoverlay => by
    cases hoverlay with
    | node hkeys hfields =>
      cases hbase with
      | leaf value => exact .node hkeys hfields
      | node hkeys' hfields' =>
        obtain ⟨h, h'⟩ := Ordered.mergeFields null overlay hkeys' hfields' hfields
        exact .node h h'

theorem Ordered.mergeFields (null : A) {base : List (K × KeyedTree K A)} :
    (overlay : List (K × KeyedTree K A)) → KeyedFields.Ordered base →
      (∀ field ∈ base, field.2.Ordered) → (∀ field ∈ overlay, field.2.Ordered) →
        KeyedFields.Ordered (KeyedTree.mergeFields null base overlay) ∧
          ∀ field ∈ KeyedTree.mergeFields null base overlay, field.2.Ordered
  | [], hkeys, hfields, _ => ⟨hkeys, hfields⟩
  | (key, value) :: overlay, hkeys, hfields, hoverlay => by
    have hvalue := Ordered.merge null value (ordered_getD_lookup hfields (.leaf null) key)
      (hoverlay _ List.mem_cons_self)
    refine Ordered.mergeFields null overlay (hkeys.insert key _) (fun field hfield ↦ ?_)
      fun field hfield ↦ hoverlay field (List.mem_cons_of_mem _ hfield)
    rcases KeyedFields.mem_insert hfield with rfl | hfield
    · exact hvalue
    · exact hfields field hfield

end

/-! ### What an overlay decides -/

theorem lookup_eq_none_of_ordered {key : K} {value : KeyedTree K A}
    {fields : List (K × KeyedTree K A)} (h : KeyedFields.Ordered ((key, value) :: fields)) :
    fields.lookup key = none := by
  refine List.lookup_eq_none_iff.2 fun field hfield ↦ ?_
  have hlt := (List.pairwise_cons.1 h).1 field hfield
  simpa using ne_of_lt hlt

/-- A field of an overlay is laid over the field of the node. -/
theorem lookup_mergeFields (null : A) (base : List (K × KeyedTree K A))
    {overlay : List (K × KeyedTree K A)} (h : KeyedFields.Ordered overlay) (key : K) :
    (mergeFields null base overlay).lookup key = match overlay.lookup key with
      | none => base.lookup key
      | some value => some (merge null ((base.lookup key).getD (leaf null)) value) := by
  induction overlay generalizing base with
  | nil => rfl
  | cons field overlay ih =>
    rw [mergeFields, ih _ (List.pairwise_cons.1 h).2, KeyedFields.lookup_insert,
      KeyedFields.lookup_cons]
    by_cases hkey : key = field.1
    · rw [if_pos hkey, if_pos hkey, hkey, lookup_eq_none_of_ordered h]
    · rw [if_neg hkey, if_neg hkey]

theorem get_cons (tree : KeyedTree K A) (key : K) (path : List K) :
    tree.get (key :: path) = (tree.fields.lookup key).bind fun tree ↦ tree.get path :=
  rfl

theorem valueAt_cons (tree : KeyedTree K A) (key : K) (path : List K) :
    tree.valueAt (key :: path) =
      (tree.fields.lookup key).bind fun tree ↦ tree.valueAt path := by
  rw [valueAt, get_cons, Option.bind_assoc]
  rfl

/-- There is no value among fields that are nodes. -/
theorem valueAt_singleton_of_forall {fields : List (K × KeyedTree K A)}
    (h : ∀ field ∈ fields, ∃ fields, field.2 = node fields) (key : K) :
    (node fields).valueAt [key] = none := by
  rw [valueAt_cons, KeyedTree.fields]
  rcases hfield : fields.lookup key with - | field
  · rfl
  · obtain ⟨before, after, rfl, -⟩ := List.lookup_eq_some_iff.1 hfield
    obtain ⟨fields, rfl⟩ := h (key, field) (List.mem_append_right _ List.mem_cons_self)
    rfl

@[simp]
theorem leaf?_merge (null : A) (base overlay : KeyedTree K A) :
    (merge null base overlay).leaf? = overlay.leaf? := by
  cases overlay with
  | leaf value => rfl
  | node overlay => cases base <;> rfl

/-- At a path that an overlay defines, its value decides. -/
theorem valueAt_merge_of_get (null : A) (base : KeyedTree K A) {overlay : KeyedTree K A}
    (h : overlay.Ordered) {path : List K} {tree : KeyedTree K A}
    (hget : overlay.get path = some tree) :
    (merge null base overlay).valueAt path = tree.leaf? := by
  induction path generalizing base overlay with
  | nil =>
    rw [← Option.some.inj hget]
    exact leaf?_merge null base overlay
  | cons key path ih =>
    cases h with
    | leaf value => cases hget
    | node hkeys hfields =>
      cases base with
      | leaf value =>
        rw [merge, valueAt, hget]
        rfl
      | node base =>
        obtain ⟨field, hfield, hrest⟩ := Option.bind_eq_some_iff.1 hget
        rw [fields] at hfield
        rw [merge, valueAt_cons, fields, lookup_mergeFields null base hkeys, hfield]
        exact ih _ (ordered_of_lookup hfields hfield) hrest

theorem get_append (tree : KeyedTree K A) (path path' : List K) :
    tree.get (path ++ path') = (tree.get path).bind fun tree ↦ tree.get path' := by
  induction path generalizing tree with
  | nil => rfl
  | cons key path ih =>
    rw [List.cons_append, get_cons, get_cons]
    rcases tree.fields.lookup key with - | tree
    · rfl
    · exact ih tree

theorem get_of_valueAt {tree : KeyedTree K A} {path : List K} {value : A}
    (h : tree.valueAt path = some value) : tree.get path = some (leaf value) := by
  obtain ⟨tree', hget, hleaf⟩ := Option.bind_eq_some_iff.1 h
  cases tree' with
  | leaf value' => rw [hget, ← Option.some.inj hleaf]
  | node fields => cases hleaf

/-- Below a value there is nothing. -/
theorem eq_nil_of_get_append {tree tree' : KeyedTree K A} {path rest : List K} {value : A}
    (h : tree.valueAt path = some value) (hrest : tree.get (path ++ rest) = some tree') :
    rest = [] := by
  rw [get_append, get_of_valueAt h] at hrest
  cases rest with
  | nil => rfl
  | cons key rest => cases hrest

/-- An overlay leaves a path alone that it does not define and that none of its values is on. -/
theorem get_merge_of_forall (null : A) (base : KeyedTree K A) {overlay : KeyedTree K A}
    (h : overlay.Ordered) {path : List K} (hget : overlay.get path = none)
    (hclear : ∀ above, above <+: path → overlay.valueAt above = none) :
    (merge null base overlay).get path = base.get path := by
  induction path generalizing base overlay with
  | nil => cases hget
  | cons key path ih =>
    cases h with
    | leaf value => cases hclear [] List.nil_prefix
    | @node overlay hkeys hfields =>
      cases base with
      | leaf value =>
        rw [merge, hget]
        rfl
      | node base =>
        rw [get_cons, fields] at hget
        rw [merge, get_cons, get_cons, fields, fields, lookup_mergeFields null base hkeys]
        rcases hfield : overlay.lookup key with - | field
        · rfl
        · rw [hfield] at hget
          have hrest := ih ((base.lookup key).getD (leaf null)) (ordered_of_lookup hfields hfield)
            hget fun above habove ↦ by
              have hvalue := hclear (key :: above) (List.cons_prefix_cons.2 ⟨rfl, habove⟩)
              rwa [valueAt_cons, fields, hfield] at hvalue
          refine hrest.trans ?_
          rcases base.lookup key with - | old
          · cases path with
            | nil => cases hget
            | cons key path => rfl
          · rfl

/-- A value at a path that an overlay does not define was there before. -/
theorem valueAt_of_valueAt_merge {null : A} {base overlay : KeyedTree K A} (h : overlay.Ordered)
    {path : List K} (hget : overlay.get path = none) {value : A}
    (hvalue : (merge null base overlay).valueAt path = some value) :
    base.valueAt path = some value := by
  have hclear : ∀ above, above <+: path → overlay.valueAt above = none := by
    rintro above ⟨rest, rfl⟩
    rcases habove : overlay.valueAt above with - | value'
    · rfl
    · have hmerged := (valueAt_merge_of_get null base h (get_of_valueAt habove))
      have hrest := eq_nil_of_get_append hmerged (get_of_valueAt hvalue)
      rw [hrest, List.append_nil, get_of_valueAt habove] at hget
      cases hget
  rw [valueAt, ← get_merge_of_forall null base h hget hclear]
  exact hvalue

/-! ### Values at the end of a path -/

/-- A value for the end of a path. -/
structure Put (K A : Type) where
  segments : List K
  last : K
  value : A

/-- The path of a value. -/
def Put.path (put : Put K A) : List K :=
  put.segments ++ [put.last]

/-- Put a tree at the end of a path, making nodes on the way. -/
def setPath (root : KeyedTree K A) (last : K) (value : KeyedTree K A) :
    List K → KeyedTree K A
  | [] => node (KeyedFields.insert last value root.fields)
  | segment :: segments =>
    node (KeyedFields.insert segment
      (setPath ((root.fields.lookup segment).getD (node [])) last value segments) root.fields)

/-- Put a value where it belongs. -/
def Put.apply (put : Put K A) (root : KeyedTree K A) : KeyedTree K A :=
  setPath root put.last (leaf put.value) put.segments

/-- Neither of two paths is on the other. -/
def Apart (path path' : List K) : Prop :=
  ¬path <+: path' ∧ ¬path' <+: path

theorem Ordered.fields {tree : KeyedTree K A} (h : tree.Ordered) :
    KeyedFields.Ordered tree.fields ∧ ∀ field ∈ tree.fields, field.2.Ordered := by
  cases h with
  | leaf value => exact ⟨List.Pairwise.nil, by simp [KeyedTree.fields]⟩
  | node hkeys hfields => exact ⟨hkeys, hfields⟩

theorem Ordered.insert {fields : List (K × KeyedTree K A)} (hkeys : KeyedFields.Ordered fields)
    (hfields : ∀ field ∈ fields, field.2.Ordered) (key : K) {value : KeyedTree K A}
    (hvalue : value.Ordered) : (KeyedTree.node (KeyedFields.insert key value fields)).Ordered := by
  refine .node (hkeys.insert key value) fun field hfield ↦ ?_
  rcases KeyedFields.mem_insert hfield with rfl | hfield
  · exact hvalue
  · exact hfields field hfield

/-- Putting a value somewhere keeps the order. -/
theorem Ordered.setPath {root : KeyedTree K A} (h : root.Ordered) (last : K)
    {value : KeyedTree K A} (hvalue : value.Ordered) (segments : List K) :
    (KeyedTree.setPath root last value segments).Ordered := by
  obtain ⟨hkeys, hfields⟩ := h.fields
  induction segments generalizing root with
  | nil => exact Ordered.insert hkeys hfields last hvalue
  | cons segment segments ih =>
    have hold := ordered_getD_lookup hfields (.node .nil (by simp)) segment
    obtain ⟨hkeys', hfields'⟩ := hold.fields
    exact Ordered.insert hkeys hfields segment (ih hold hkeys' hfields')

theorem get_setPath_self (root : KeyedTree K A) (last : K) (value : KeyedTree K A)
    (segments : List K) :
    (setPath root last value segments).get (segments ++ [last]) = some value := by
  induction segments generalizing root with
  | nil => simp [setPath, get, fields]
  | cons segment segments ih =>
    rw [setPath, List.cons_append, get_cons, fields, KeyedFields.lookup_insert, if_pos rfl]
    exact ih _

/-- What is apart from the path stays as it was. -/
theorem get_setPath_of_apart {root : KeyedTree K A} {last : K} {value : KeyedTree K A}
    {segments path : List K} (h : Apart (segments ++ [last]) path) :
    (setPath root last value segments).get path = root.get path := by
  induction segments generalizing root path with
  | nil =>
    cases path with
    | nil => exact absurd List.nil_prefix h.2
    | cons key path =>
      have hkey : key ≠ last := by
        rintro rfl
        exact h.1 (List.cons_prefix_cons.2 ⟨rfl, List.nil_prefix⟩)
      rw [setPath, get_cons, get_cons, fields, KeyedFields.lookup_insert, if_neg hkey]
  | cons segment segments ih =>
    cases path with
    | nil => exact absurd List.nil_prefix h.2
    | cons key path =>
      rw [setPath, get_cons, get_cons, fields, KeyedFields.lookup_insert]
      split_ifs with hkey
      · subst hkey
        have hrest : Apart (segments ++ [last]) path :=
          ⟨fun hp ↦ h.1 (List.cons_prefix_cons.2 ⟨rfl, hp⟩),
            fun hp ↦ h.2 (List.cons_prefix_cons.2 ⟨rfl, hp⟩)⟩
        refine (ih hrest).trans ?_
        rcases root.fields.lookup key with - | old
        · cases path with
          | nil => exact absurd List.nil_prefix hrest.2
          | cons key path => rfl
        · rfl
      · rfl

omit [LinearOrder K] in
theorem Apart.symm {path path' : List K} (h : Apart path path') : Apart path' path :=
  ⟨h.2, h.1⟩

/-- Values at paths that are apart can be put in any order. -/
theorem setPath_comm {root value value' : KeyedTree K A} {last last' : K}
    {segments segments' : List K} (h : Apart (segments ++ [last]) (segments' ++ [last'])) :
    setPath (setPath root last' value' segments') last value segments =
      setPath (setPath root last value segments) last' value' segments' := by
  induction segments generalizing root segments' with
  | nil =>
    cases segments' with
    | nil =>
      have hlast : last ≠ last' := by
        rintro rfl
        exact h.1 (List.prefix_refl _)
      rw [setPath, setPath, setPath, setPath, fields, fields, KeyedFields.insert_comm hlast]
    | cons segment' segments' =>
      have hlast : segment' ≠ last := by
        rintro rfl
        exact h.1 (List.cons_prefix_cons.2 ⟨rfl, List.nil_prefix⟩)
      rw [setPath, setPath, setPath, setPath, fields, fields, KeyedFields.lookup_insert,
        if_neg hlast, KeyedFields.insert_comm hlast.symm]
  | cons segment segments ih =>
    cases segments' with
    | nil =>
      have hlast : segment ≠ last' := by
        rintro rfl
        exact h.2 (List.cons_prefix_cons.2 ⟨rfl, List.nil_prefix⟩)
      rw [setPath, setPath, setPath, setPath, fields, fields, KeyedFields.lookup_insert,
        if_neg hlast, KeyedFields.insert_comm hlast]
    | cons segment' segments' =>
      simp only [setPath, fields, KeyedFields.lookup_insert]
      by_cases hsegment : segment = segment'
      · subst hsegment
        have hrest : Apart (segments ++ [last]) (segments' ++ [last']) :=
          ⟨fun hp ↦ h.1 (List.cons_prefix_cons.2 ⟨rfl, hp⟩),
            fun hp ↦ h.2 (List.cons_prefix_cons.2 ⟨rfl, hp⟩)⟩
        rw [if_pos rfl, if_pos rfl, Option.getD_some, Option.getD_some, ih hrest,
          KeyedFields.insert_insert_self, KeyedFields.insert_insert_self]
      · rw [if_neg hsegment, if_neg (Ne.symm hsegment), KeyedFields.insert_comm hsegment]

/-- Put several values where they belong, one after the other. -/
def putAll (root : KeyedTree K A) (puts : List (Put K A)) : KeyedTree K A :=
  puts.foldl (fun root put ↦ put.apply root) root

/-- None of the paths is on another one. -/
def PutsApart (puts : List (Put K A)) : Prop :=
  puts.Pairwise fun put put' ↦ Apart put.path put'.path

/-- The order in which values are put does not matter. -/
theorem putAll_perm {puts puts' : List (Put K A)} (h : PutsApart puts) (hperm : puts.Perm puts')
    (root : KeyedTree K A) : root.putAll puts = root.putAll puts' := by
  have hcomm : ∀ put ∈ puts, ∀ put' ∈ puts, ∀ root : KeyedTree K A,
      put'.apply (put.apply root) = put.apply (put'.apply root) :=
    List.Pairwise.forall_of_forall_of_flip (fun _ _ _ ↦ rfl)
      (h.imp fun hapart _ ↦ setPath_comm hapart.symm) (h.imp fun hapart _ ↦ setPath_comm hapart)
  exact hperm.foldl_eq' hcomm root

theorem get_putAll_of_apart {puts : List (Put K A)} {path : List K}
    (h : ∀ put ∈ puts, Apart put.path path) (root : KeyedTree K A) :
    (root.putAll puts).get path = root.get path := by
  induction puts generalizing root with
  | nil => rfl
  | cons put puts ih =>
    obtain ⟨hput, hputs⟩ := List.forall_mem_cons.1 h
    exact (ih hputs _).trans (get_setPath_of_apart hput)

theorem get_putAll_of_mem {puts : List (Put K A)} (h : PutsApart puts) {put : Put K A}
    (hput : put ∈ puts) (root : KeyedTree K A) :
    (root.putAll puts).get put.path = some (leaf put.value) := by
  induction puts generalizing root with
  | nil => cases hput
  | cons head puts ih =>
    obtain ⟨hhead, hputs⟩ := List.pairwise_cons.1 h
    rcases List.mem_cons.1 hput with rfl | hput
    · exact (get_putAll_of_apart (fun put' hput' ↦ (hhead put' hput').symm) _).trans
        (get_setPath_self _ _ _ _)
    · exact ih hputs hput _

/-- A value is one that was put there, or was there before. -/
theorem valueAt_putAll {puts : List (Put K A)} (h : PutsApart puts) {root : KeyedTree K A}
    {path : List K} {value : A} (hvalue : (root.putAll puts).valueAt path = some value) :
    (∃ put ∈ puts, put.path = path ∧ put.value = value) ∨
      (∀ put ∈ puts, put.path ≠ path) ∧ root.valueAt path = some value := by
  by_cases hapart : ∀ put ∈ puts, Apart put.path path
  · refine .inr ⟨fun put hput hpath ↦ (hapart put hput).1 (hpath ▸ List.prefix_refl _), ?_⟩
    rwa [valueAt, get_putAll_of_apart hapart] at hvalue
  · push Not at hapart
    obtain ⟨put, hput, hon⟩ := hapart
    have hget := get_putAll_of_mem h hput root
    have hputValue : (root.putAll puts).valueAt put.path = some put.value := by
      rw [valueAt, hget]
      rfl
    have hpath : put.path = path := by
      by_contra hne
      refine hon ⟨?_, ?_⟩
      · rintro ⟨rest, rfl⟩
        have hrest := eq_nil_of_get_append hputValue (get_of_valueAt hvalue)
        exact hne (by rw [hrest, List.append_nil])
      · rintro ⟨rest, hrest⟩
        rw [← hrest] at hget
        have hnil := eq_nil_of_get_append hvalue hget
        exact hne (by rw [← hrest, hnil, List.append_nil])
    refine .inl ⟨put, hput, hpath, ?_⟩
    rw [hpath, hvalue] at hputValue
    exact (Option.some.inj hputValue).symm

end KeyedTree
