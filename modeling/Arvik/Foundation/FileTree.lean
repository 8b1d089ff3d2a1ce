import Mathlib.Data.List.Basic
import Mathlib.Data.List.Induction

/-!
# File trees

A tree of files, directories and symbolic links, and the resolution of a path in it. Resolution
walks the components of the path from a directory; at a link it continues with the target of the
link, as long as the number of links followed stays within a bound. What comes out is the location
of a file or directory, never of a link (`find_isLink`).

The walk over the components of one path is structural, and takes what to do at a link as an
argument; the bound on links is the recursion around it. So an induction on the walk treats one path
at a time, and an induction on the bound treats the links (`walk_leads` and `resolve_leads`),
without a measure on the two together.

A path is kept as its components and not as a text, with a component that stays `here` for an empty
one: a path that ends in a separator is then a different path, as it is for a file system, which
refuses a file under it.
-/

/-- A component of a path. An empty component is one that stays `here`. -/
inductive FilePath.Comp (N : Type*)
  | here
  | up
  | name (n : N)
  deriving DecidableEq

/-- A path. A path that ends in a separator ends in the component `here`. -/
structure FilePath (N : Type*) where
  absolute : Bool
  comps : List (FilePath.Comp N)
  deriving DecidableEq

namespace FilePath

variable {N : Type*} [DecidableEq N]

/-- The path of the empty text. -/
def isEmpty (self : FilePath N) : Bool :=
  !self.absolute && self.comps.isEmpty

/-- The second path, read from the first. Joining the empty path appends a separator. -/
def join (self path : FilePath N) : FilePath N :=
  if path.absolute || self.isEmpty then path
  else { self with comps := self.comps ++ if path.isEmpty then [.here] else path.comps }

/-- The components in reverse, from the last one on that leads somewhere. -/
def lastComps (self : FilePath N) : List (Comp N) :=
  self.comps.reverse.dropWhile fun comp ↦ comp = .here

/-- The last component, if it is a name. -/
def fileName (self : FilePath N) : Option N :=
  match self.lastComps with
  | .name n :: _ => some n
  | _ => none

/-- The path with its last name replaced, or with a name appended if it does not end in one. -/
def withFileName (self : FilePath N) (n : N) : FilePath N :=
  match self.lastComps with
  | .name _ :: rest => (⟨self.absolute, rest.reverse⟩ : FilePath N).join ⟨false, [.name n]⟩
  | _ => self.join ⟨false, [.name n]⟩

end FilePath

/-- A file, a symbolic link, or a directory with its entries. -/
inductive FileTree (N α : Type*)
  | file (data : α)
  | link (target : FilePath N)
  | dir (entries : List (N × FileTree N α))

namespace FileTree

variable {N α : Type*} [DecidableEq N]

/-- The entry of a directory under a name. -/
def child : FileTree N α → N → Option (FileTree N α)
  | dir entries, n => entries.lookup n
  | _, _ => none

/-- The tree at a location. -/
def get (self : FileTree N α) : List N → Option (FileTree N α)
  | [] => some self
  | n :: location => (self.child n).bind fun tree ↦ tree.get location

omit [DecidableEq N] in
/-- This is a directory. -/
def isDir : FileTree N α → Bool
  | dir _ => true
  | _ => false

omit [DecidableEq N] in
/-- This is a link. -/
def isLink : FileTree N α → Bool
  | link _ => true
  | _ => false

/-- Walk from a location; at a link, `follow` goes on from the location its target is read from. -/
def walk (self : FileTree N α) (follow : List N → List (FilePath.Comp N) → Option (List N)) :
    List N → List (FilePath.Comp N) → Option (List N)
  | location, [] => some location
  | location, comp :: rest =>
    if (self.get location).any isDir then
      match comp with
      | .here => self.walk follow location rest
      | .up => self.walk follow location.dropLast rest
      | .name n =>
        match self.get (location ++ [n]) with
        | none => none
        -- the target takes the place of the link, read from where the link is
        | some (link target) =>
          follow (if target.absolute then [] else location) (target.comps ++ rest)
        | some _ => self.walk follow (location ++ [n]) rest
    else none

/-- Walk from a location, following at most so many links. -/
def resolve (self : FileTree N α) : ℕ → List N → List (FilePath.Comp N) → Option (List N)
  | 0 => self.walk fun _ _ ↦ none
  | links + 1 => self.walk (self.resolve links)

variable {self : FileTree N α} {location : List N}

theorem get_append (self : FileTree N α) (location names : List N) :
    self.get (location ++ names) = (self.get location).bind fun tree ↦ tree.get names := by
  induction location generalizing self with
  | nil => rfl
  | cons n location ih =>
    rw [List.cons_append, get, get, Option.bind_assoc]
    exact Option.bind_congr fun tree _ ↦ ih tree

theorem isDir_of_child_eq_some {tree : FileTree N α} {n : N} (h : self.child n = some tree) :
    self.isDir := by
  rcases self with _ | _ | entries
  · cases h
  · cases h
  · rfl

omit [DecidableEq N] in
theorem isLink_of_isDir (h : self.isDir) : self.isLink = false := by
  rcases self with _ | _ | entries
  · rfl
  · cases h
  · rfl

/-- A location leads through directories only. -/
theorem any_isDir_of_get_append {n : N} (h : (self.get (location ++ [n])).isSome) :
    (self.get location).any isDir := by
  obtain ⟨tree, htree⟩ := Option.isSome_iff_exists.1 h
  rw [get_append] at htree
  obtain ⟨parent, hparent, hget⟩ := Option.bind_eq_some_iff.1 htree
  obtain ⟨entry, hentry, -⟩ := Option.bind_eq_some_iff.1 hget
  rw [hparent]
  exact isDir_of_child_eq_some hentry

/-- The parent of a directory is a directory. -/
theorem any_isDir_dropLast (h : (self.get location).any isDir) :
    (self.get location.dropLast).any isDir := by
  rcases List.eq_nil_or_concat' location with rfl | ⟨parent, n, rfl⟩
  · exact h
  · rw [List.dropLast_concat]
    exact any_isDir_of_get_append (Option.isSome_of_any h)

/-- The root of a tree with a directory somewhere is a directory. -/
theorem any_isDir_nil (h : (self.get location).any isDir) : (self.get []).any isDir := by
  induction location using List.reverseRecOn with
  | nil => exact h
  | append_singleton location n ih => exact ih (any_isDir_of_get_append (Option.isSome_of_any h))

/-- A location that leads to something other than a link. -/
def Leads (self : FileTree N α) (location : List N) : Prop :=
  ∃ tree, self.get location = some tree ∧ tree.isLink = false

theorem leads_of_any_isDir (h : (self.get location).any isDir) : self.Leads location := by
  obtain ⟨tree, htree, hdir⟩ := Option.any_eq_true _ _ |>.1 h
  exact ⟨tree, htree, isLink_of_isDir hdir⟩

/-- A walk never ends at a link. -/
theorem walk_leads {follow : List N → List (FilePath.Comp N) → Option (List N)}
    {comps : List (FilePath.Comp N)} {result : List N}
    (hfollow : ∀ {start comps}, (self.get start).any isDir → follow start comps = some result →
      self.Leads result)
    (hstart : self.Leads location) (h : self.walk follow location comps = some result) :
    self.Leads result := by
  induction comps generalizing location with
  | nil => exact Option.some.inj h ▸ hstart
  | cons comp rest ih =>
    rw [walk.eq_def] at h
    simp only at h
    split at h
    · next hdir =>
      rcases comp with _ | _ | n
      · exact ih hstart h
      · exact ih (leads_of_any_isDir (any_isDir_dropLast hdir)) h
      · simp only at h
        split at h
        · cases h
        · refine hfollow ?_ h
          split
          · exact any_isDir_nil hdir
          · exact hdir
        · next tree hlink htree =>
          refine ih ⟨tree, htree, ?_⟩ h
          rcases tree with _ | target | _
          · rfl
          · exact absurd rfl (hlink target)
          · rfl
    · cases h

/-- A resolution from a directory never ends at a link. -/
theorem resolve_leads {links : ℕ} {comps : List (FilePath.Comp N)} {result : List N}
    (hstart : (self.get location).any isDir)
    (h : self.resolve links location comps = some result) : self.Leads result := by
  induction links generalizing location comps with
  | zero => exact walk_leads (fun _ h ↦ by cases h) (leads_of_any_isDir hstart) h
  | succ links ih => exact walk_leads ih (leads_of_any_isDir hstart) h

end FileTree

/-- The file tree as a process sees it. -/
structure FileSystem (N α : Type*) [DecidableEq N] where
  root : FileTree N α
  /-- The location relative paths are read from. -/
  workingDir : List N
  isDir_workingDir : (root.get workingDir).any FileTree.isDir
  /-- How many links a resolution may follow. -/
  maxLinks : ℕ

namespace FileSystem

variable {N α : Type*} [DecidableEq N]

/-- The location a path leads to, all links resolved. -/
def canonicalize (self : FileSystem N α) (path : FilePath N) : Option (List N) :=
  if path.isEmpty then none
  else self.root.resolve self.maxLinks (if path.absolute then [] else self.workingDir) path.comps

/-- What a path leads to, and where that is. -/
def find (self : FileSystem N α) (path : FilePath N) : Option (List N × FileTree N α) :=
  (self.canonicalize path).bind fun location ↦
    (self.root.get location).map fun tree ↦ (location, tree)

/-- The file a path leads to, and where it is. -/
def findFile (self : FileSystem N α) (path : FilePath N) : Option (List N × α) :=
  match self.find path with
  | some (location, .file data) => some (location, data)
  | _ => none

/-- A path never leads to a link. -/
theorem find_isLink {self : FileSystem N α} {path : FilePath N} {location : List N}
    {tree : FileTree N α} (h : self.find path = some (location, tree)) : tree.isLink = false := by
  obtain ⟨found, hfound, hmap⟩ := Option.bind_eq_some_iff.1 h
  obtain ⟨tree', htree, heq⟩ := Option.map_eq_some_iff.1 hmap
  obtain ⟨rfl, rfl⟩ := Prod.mk.inj heq
  rw [canonicalize] at hfound
  split at hfound
  · cases hfound
  · have hleads : self.root.Leads found := by
      refine FileTree.resolve_leads ?_ hfound
      split
      · exact FileTree.any_isDir_nil self.isDir_workingDir
      · exact self.isDir_workingDir
    obtain ⟨tree, hget, hlink⟩ := hleads
    rw [htree] at hget
    exact Option.some.inj hget ▸ hlink

end FileSystem
