import Arvik.Foundation.FileTree
import Mathlib.Data.List.Nodup

/-!
# Trees without links

A file tree without symbolic links whose entries have distinct names, as it lies somewhere in a file
system. Links may lead to it, and the rest of the file system may hold as many as it likes; the tree
itself has none.

Walking down such a tree is looking a location up in it: no link is followed, whatever links led
there (`FileSystem.find_append`). The proof separates the two parts of a path. The first part is
resolved as ever, to a location without links. From there each name is either kept or stays where it
is, and the fuel that bounds the following of links is not touched (`Plain.walk`). That the names of
a directory are distinct is what makes an entry the one that is found under its name.
-/

namespace FileTree

variable {N α : Type*} [DecidableEq N]

omit [DecidableEq N] in
/-- A tree of files and directories, with names of some kind that are distinct in each directory. -/
inductive Plain (P : N → Prop) : FileTree N α → Prop
  | file (data : α) : Plain P (.file data)
  | dir {entries : List (N × FileTree N α)} (names : ∀ entry ∈ entries, P entry.1)
      (nodup : (entries.map Prod.fst).Nodup) (sub : ∀ entry ∈ entries, Plain P entry.2) :
      Plain P (.dir entries)

/-- The file at a location. -/
def fileAt (self : FileTree N α) (location : List N) : Option α :=
  match self.get location with
  | some (file data) => some data
  | _ => none

/-- There is a file somewhere in the tree. -/
def HoldsFile (self : FileTree N α) : Prop :=
  ∃ location data, self.get location = some (.file data)

variable {P : N → Prop} {self tree : FileTree N α} {location : List N}

theorem fileAt_eq_some_iff {data : α} :
    self.fileAt location = some data ↔ self.get location = some (.file data) := by
  rw [fileAt]
  rcases self.get location with - | data' | target | entries
  · exact iff_of_false nofun nofun
  · exact ⟨fun h ↦ congrArg (some ∘ file) (Option.some.inj h),
      fun h ↦ congrArg some (file.inj (Option.some.inj h))⟩
  · exact iff_of_false nofun nofun
  · exact iff_of_false nofun nofun

/-- The entries of a directory are found under their names. -/
theorem lookup_eq_some_iff_mem {β : Type*} {entries : List (N × β)}
    (h : (entries.map Prod.fst).Nodup) {n : N} {b : β} :
    entries.lookup n = some b ↔ (n, b) ∈ entries := by
  rw [List.lookup_eq_some_iff]
  constructor
  · rintro ⟨before, behind, rfl, -⟩
    exact List.mem_append_right _ List.mem_cons_self
  · intro hmem
    obtain ⟨before, behind, rfl⟩ := List.append_of_mem hmem
    refine ⟨before, behind, rfl, fun entry hentry ↦ bne_iff_ne.2 ?_⟩
    rintro rfl
    rw [List.map_append, List.map_cons] at h
    exact (List.nodup_append.1 h).2.2 entry.1 (List.mem_map_of_mem hentry) entry.1
      List.mem_cons_self rfl

theorem Plain.child (hself : self.Plain P) {n : N} (h : self.child n = some tree) :
    P n ∧ tree.Plain P := by
  cases hself with
  | file data => exact nomatch h
  | dir names nodup sub =>
    have hmem := (lookup_eq_some_iff_mem nodup).1 h
    exact ⟨names _ hmem, sub _ hmem⟩

/-- What is in a plain tree is plain. -/
theorem Plain.get (hself : self.Plain P) (h : self.get location = some tree) :
    (∀ n ∈ location, P n) ∧ tree.Plain P := by
  induction location generalizing self with
  | nil => exact ⟨nofun, Option.some.inj h ▸ hself⟩
  | cons n location ih =>
    obtain ⟨child, hchild, hget⟩ := Option.bind_eq_some_iff.1 h
    obtain ⟨hn, hplain⟩ := hself.child hchild
    obtain ⟨hlocation, htree⟩ := ih hplain hget
    exact ⟨List.forall_mem_cons.2 ⟨hn, hlocation⟩, htree⟩

/-- Walking down a plain tree is looking up. -/
theorem Plain.walk {sub : FileTree N α} (hsub : sub.Plain P) (hget : self.get location = some sub)
    (follow : List N → List (FilePath.Comp N) → Option (List N)) (names : List N) :
    self.walk follow location (names.map .name) =
      (sub.get names).map fun _ ↦ location ++ names := by
  induction names generalizing location sub with
  | nil => exact congrArg some (List.append_nil location).symm
  | cons n names ih =>
    rw [List.map_cons, FileTree.walk, hget, Option.any_some]
    by_cases hdir : sub.isDir
    · rw [if_pos hdir]
      have hchild : self.get (location ++ [n]) = sub.child n := by
        rw [get_append, hget, Option.bind_some, FileTree.get]
        exact Option.bind_fun_some _
      rcases hn : sub.child n with - | tree
      · simp only [hchild, hn, FileTree.get, Option.bind_none, Option.map_none]
      · have hnext := ih (hsub.child hn).2 (hchild.trans hn)
        have hplain := (hsub.child hn).2
        rw [List.append_assoc, List.singleton_append] at hnext
        simp only [hchild, hn, FileTree.get, Option.bind_some]
        cases hplain with
        | file data => exact hnext
        | dir names nodup sub => exact hnext
    · rw [if_neg hdir]
      rcases hn : sub.child n with - | tree
      · rw [FileTree.get, hn]
        rfl
      · exact absurd (isDir_of_child_eq_some hn) hdir

/-- A component that stays where it is can be left out in a directory. -/
theorem walk_here (hdir : (self.get location).any isDir)
    (follow : List N → List (FilePath.Comp N) → Option (List N))
    (comps : List (FilePath.Comp N)) :
    self.walk follow location (.here :: comps) = self.walk follow location comps := by
  rw [walk, if_pos hdir]

/-- More components are walked from where the first ones lead, if no link is met there. -/
theorem resolve_append {more : List (FilePath.Comp N)} {result : Option (List N)}
    (hmore : ∀ follow, self.walk follow location more = result) {links : ℕ} {start : List N}
    {comps : List (FilePath.Comp N)} (h : self.resolve links start comps = some location) :
    self.resolve links start (comps ++ more) = result := by
  -- A walk that arrives goes on with what follows, as long as following links does.
  have hwalk : ∀ (follow : List N → List (FilePath.Comp N) → Option (List N)),
      (∀ {start comps}, follow start comps = some location →
        follow start (comps ++ more) = result) →
      ∀ {start comps}, self.walk follow start comps = some location →
        self.walk follow start (comps ++ more) = result := by
    intro follow hfollow start comps
    induction comps generalizing start with
    | nil =>
      intro h
      rw [← hmore follow, ← Option.some.inj h]
      rfl
    | cons comp rest ih =>
      intro h
      rw [List.cons_append]
      rw [walk.eq_def] at h ⊢
      simp only at h ⊢
      split at h
      · next hdir =>
        rw [if_pos hdir]
        rcases comp with _ | _ | n
        · exact ih h
        · exact ih h
        · simp only at h ⊢
          rcases hn : self.get (start ++ [n]) with - | data | target | entries
          · rw [hn] at h
            cases h
          · rw [hn] at h
            exact ih h
          · rw [hn] at h
            simp only [← List.append_assoc]
            exact hfollow h
          · rw [hn] at h
            exact ih h
      · cases h
  induction links generalizing start comps with
  | zero => exact hwalk (fun _ _ ↦ none) (fun h ↦ by cases h) h
  | succ links ih => exact hwalk (self.resolve links) ih h

end FileTree

namespace FileSystem

variable {N α : Type*} [DecidableEq N] {self : FileSystem N α} {path : FilePath N}
  {location : List N}

theorem isEmpty_of_canonicalize (h : self.canonicalize path = some location) :
    path.isEmpty = false := by
  rw [canonicalize] at h
  split at h
  · cases h
  · next hempty => exact Bool.eq_false_iff.2 hempty

/-- More components lead on from where a path leads, if no link is met there. -/
theorem canonicalize_append (hpath : self.canonicalize path = some location)
    {more : List (FilePath.Comp N)} {result : Option (List N)}
    (hmore : ∀ follow, self.root.walk follow location more = result) :
    self.canonicalize { path with comps := path.comps ++ more } = result := by
  have hempty := isEmpty_of_canonicalize hpath
  rw [canonicalize, hempty, if_neg Bool.false_ne_true] at hpath
  have hempty' : ({ path with comps := path.comps ++ more } : FilePath N).isEmpty = false := by
    rw [FilePath.isEmpty, Bool.and_eq_false_iff] at hempty ⊢
    refine hempty.imp_right fun h ↦ ?_
    rw [List.isEmpty_eq_false_iff] at h ⊢
    exact List.append_ne_nil_of_left_ne_nil h _
  rw [canonicalize, hempty', if_neg Bool.false_ne_true]
  exact FileTree.resolve_append hmore hpath

/-- **Looking up below a plain tree**, from the path that leads to it. -/
theorem find_append {P : N → Prop} {sub : FileTree N α}
    (hpath : self.canonicalize path = some location) (hsub : self.root.get location = some sub)
    (hplain : sub.Plain P) {heres : List (FilePath.Comp N)}
    (hheres : heres = [] ∨ heres = [.here] ∧ sub.isDir) (names : List N) :
    self.canonicalize { path with comps := path.comps ++ (heres ++ names.map .name) } =
        (sub.get names).map (fun _ ↦ location ++ names) ∧
      self.find { path with comps := path.comps ++ (heres ++ names.map .name) } =
        (sub.get names).map fun tree ↦ (location ++ names, tree) := by
  have hwalk : ∀ follow, self.root.walk follow location (heres ++ names.map .name) =
      (sub.get names).map fun _ ↦ location ++ names := by
    intro follow
    obtain rfl | ⟨rfl, hdir⟩ := hheres
    · exact hplain.walk hsub follow names
    · rw [List.singleton_append, FileTree.walk_here (by rw [hsub]; exact hdir)]
      exact hplain.walk hsub follow names
  have hcanonical := canonicalize_append hpath hwalk
  refine ⟨hcanonical, ?_⟩
  rw [find, hcanonical]
  rcases htree : sub.get names with - | tree
  · rfl
  · have hget : self.root.get (location ++ names) = some tree := by
      rw [FileTree.get_append, hsub]
      exact htree
    rw [Option.map_some, Option.bind_some, hget]

end FileSystem

namespace FilePath

variable {N : Type*} [DecidableEq N]

theorem fileName_concat (self : FilePath N) (n : N) :
    ({ self with comps := self.comps ++ [.name n] } : FilePath N).fileName = some n := by
  rw [fileName, lastComps, List.reverse_concat, List.dropWhile_cons_of_neg (by simp)]

/-- Replacing the last name of a path. -/
theorem withFileName_concat {self : FilePath N} (h : self.isEmpty = false) (n m : N) :
    ({ self with comps := self.comps ++ [.name n] } : FilePath N).withFileName m =
      { self with comps := self.comps ++ [.name m] } := by
  rw [withFileName, lastComps, List.reverse_concat, List.dropWhile_cons_of_neg (by simp)]
  simp only [List.reverse_reverse]
  rw [join, h]
  rfl

end FilePath
