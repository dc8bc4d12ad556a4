import Slotwise.Failure
import Slotwise.FilePath
/-!
# File trees

A file tree is what stands below the directory that a run works in: directories and files, each
under the names that lead to it. Operations follow a path step by step and refuse what an operating
system refuses.

Main statements: what stands under a name after a change (`get?_put`, `get?_remove`,
`get?_removeBelow`).
-/

namespace Slotwise

/-- What stands under a name. -/
inductive Entry where
  /-- A directory. -/
  | directory
  /-- A file with its text. -/
  | file (text : String)
deriving DecidableEq, Repr

/-- Directories and files by the names that lead to them. -/
structure FileTree where
  /-- The entries. The directory at the top is not among them. -/
  entries : List (List String × Entry)
deriving Repr

namespace FileTree

/-- The tree with nothing in it. -/
def empty : FileTree := ⟨[]⟩

/-- What stands under these names. -/
def get? (tree : FileTree) (names : List String) : Option Entry :=
  if names = [] then some .directory else tree.entries.lookup names

/-- The tree with an entry under these names. -/
def put (tree : FileTree) (names : List String) (entry : Entry) : FileTree :=
  ⟨(names, entry) :: tree.entries.filter (·.1 ≠ names)⟩

/-- The tree with nothing under these names. -/
def remove (tree : FileTree) (names : List String) : FileTree :=
  ⟨tree.entries.filter (·.1 ≠ names)⟩

/-- The tree with nothing under these names and below them. -/
def removeBelow (tree : FileTree) (names : List String) : FileTree :=
  ⟨tree.entries.filter fun entry => !names.isPrefixOf entry.1⟩

/-- The tree with nothing below these names. -/
def emptyBelow (tree : FileTree) (names : List String) : FileTree :=
  ⟨tree.entries.filter fun entry => entry.1 = names || !names.isPrefixOf entry.1⟩

/-! ## Following paths -/

/-- The names that a path leads to from a directory. Each step needs a directory to start from. -/
def walk (tree : FileTree) (names : List String) :
    List FilePath.Component → Except DiskError (List String)
  | [] => .ok names
  | .root :: rest => walk tree [] rest
  | .here :: rest => walk tree names rest
  | step :: rest =>
    match tree.get? names with
    | some .directory =>
      match step with
      | .entry name => walk tree (names ++ [name]) rest
      | _ => walk tree names.dropLast rest
    | some (.file _) => .error .notDirectory
    | none => .error .missing

/-- The names that a path leads to. A path that is written as that of a directory leads to no
file, and one that ends in a dot leads to a directory that is there. -/
def locate (tree : FileTree) (path : FilePath) : Except DiskError (List String) :=
  match tree.walk [] path.components with
  | .error error => .error error
  | .ok names =>
    match path.namesDirectory, tree.get? names with
    | true, some (.file _) => .error .notDirectory
    | _, none => if path.lastPiece = ['.'] then .error .missing else .ok names
    | _, _ => .ok names

/-- What a path leads to, if there is something. -/
def find? (tree : FileTree) (path : FilePath) : Option Entry :=
  match tree.locate path with
  | .ok names => tree.get? names
  | .error _ => none

/-! ## Operations -/

/-- The text of the file that a path leads to. -/
def read (tree : FileTree) (path : FilePath) : Except DiskError String :=
  match tree.locate path with
  | .error error => .error error
  | .ok names =>
    match tree.get? names with
    | some (.file text) => .ok text
    | some .directory => .error .isDirectory
    | none => .error .missing

/-- The tree with a new directory where these steps lead to. -/
def makeDirectory (tree : FileTree) (steps : List FilePath.Component) :
    Except DiskError FileTree :=
  match tree.walk [] steps with
  | .error error => .error error
  | .ok names =>
    match tree.get? names with
    | some _ => .error .exists
    | none => .ok (tree.put names .directory)

/-- Whether these steps lead to a directory. -/
def isDirectory (tree : FileTree) (steps : List FilePath.Component) : Bool :=
  match tree.walk [] steps with
  | .ok names => tree.get? names = some .directory
  | .error _ => false

/-- The tree with a directory where these steps, last step first, lead to, and directories on the
way there. A directory that is there already stays. -/
def makeDirectoriesBack (tree : FileTree) :
    List FilePath.Component → Except DiskError FileTree
  | [] => .ok tree
  | step :: before =>
    let steps := (step :: before).reverse
    let orPresent (tree : FileTree) : Except DiskError FileTree :=
      match tree.makeDirectory steps with
      | .ok tree => .ok tree
      | .error error => if tree.isDirectory steps then .ok tree else .error error
    match tree.makeDirectory steps with
    | .error .missing =>
      match tree.makeDirectoriesBack before with
      | .ok tree => orPresent tree
      | .error error => .error error
    | _ => orPresent tree

/-- The tree with a directory where a path leads to, and directories on the way there. -/
def makeDirectories (tree : FileTree) (path : FilePath) : Except DiskError FileTree :=
  tree.makeDirectoriesBack path.components.reverse

/-- The tree with this text in the file that a path leads to. -/
def write (tree : FileTree) (path : FilePath) (text : String) : Except DiskError FileTree :=
  match tree.locate path with
  | .error error => .error error
  | .ok names =>
    if tree.get? names = some .directory then .error .isDirectory
    else .ok (tree.put names (.file text))

/-- The tree with a file moved to another path, where it takes the place of a file. The other path
has to end in a name. -/
def rename (tree : FileTree) (source target : FilePath) : Except DiskError FileTree :=
  match tree.locate source, tree.locate target with
  | .error error, _ => .error error
  | _, .error error => .error error
  | .ok old, .ok new =>
    match tree.get? old with
    | some (.file text) =>
      if target.lastPiece = ['.'] ∨ target.lastPiece = ['.', '.'] then .error .busy
      else if target.namesDirectory then .error .notDirectory
      else if tree.get? new = some .directory then .error .isDirectory
      else .ok ((tree.remove old).put new (.file text))
    | some .directory => .error .isDirectory
    | none => .error .missing

/-- The tree without the directory that a path leads to and everything in it. Where there is nothing,
nothing is removed. First goes what the directory holds and then the directory itself: a path that
ends in a dot cannot name it then, and one that ends in two dots no longer leads to it. -/
def clear (tree : FileTree) (path : FilePath) : FileTree × Option DiskError :=
  match tree.locate path with
  | .error _ => (tree, none)
  | .ok names =>
    match tree.get? names with
    | none => (tree, none)
    | some (.file _) => (tree, some .notDirectory)
    | some .directory =>
      if path.lastPiece = ['.'] then (tree.emptyBelow names, some .invalid)
      else if path.lastPiece = ['.', '.'] then (tree.emptyBelow names, none)
      else (tree.removeBelow names, none)

/-! ## What stands under a name after a change -/

theorem lookup_filter_of_keep {entries : List (List String × Entry)} {names : List String}
    {keep : List String × Entry → Bool} (h : ∀ entry, keep (names, entry) = true) :
    (entries.filter keep).lookup names = entries.lookup names := by
  induction entries with
  | nil => rfl
  | cons first rest ih =>
    obtain ⟨other, entry⟩ := first
    by_cases same : names = other
    · subst same
      simp [h]
    · have ne : (names == other) = false := by simpa using same
      by_cases kept : keep (other, entry) = true <;> simp [kept, List.lookup_cons, ne, ih]

theorem lookup_filter_of_drop {entries : List (List String × Entry)} {names : List String}
    {keep : List String × Entry → Bool} (h : ∀ entry, keep (names, entry) = false) :
    (entries.filter keep).lookup names = none := by
  induction entries with
  | nil => rfl
  | cons first rest ih =>
    obtain ⟨other, entry⟩ := first
    by_cases same : names = other
    · subst same
      simp [h, ih]
    · have ne : (names == other) = false := by simpa using same
      by_cases kept : keep (other, entry) = true <;> simp [kept, List.lookup_cons, ne, ih]

theorem get?_put {tree : FileTree} {names other : List String} {entry : Entry}
    (h : other ≠ []) :
    (tree.put names entry).get? other = if other = names then some entry
      else tree.get? other := by
  by_cases same : other = names
  · subst same
    simp [get?, put, h]
  · have ne : (other == names) = false := by simpa using same
    simp only [get?, put, h, if_false, List.lookup_cons, ne, same]
    exact lookup_filter_of_keep fun _ => by simpa using same

theorem get?_remove {tree : FileTree} {names other : List String} (h : other ≠ []) :
    (tree.remove names).get? other = if other = names then none else tree.get? other := by
  simp only [get?, remove, h, if_false]
  by_cases same : other = names
  · rw [if_pos same]
    exact lookup_filter_of_drop fun _ => by simpa using same
  · rw [if_neg same]
    exact lookup_filter_of_keep fun _ => by simpa using same

theorem get?_removeBelow {tree : FileTree} {names other : List String} (h : other ≠ []) :
    (tree.removeBelow names).get? other =
      if names <+: other then none else tree.get? other := by
  simp only [get?, removeBelow, h, if_false]
  by_cases below : names <+: other
  · rw [if_pos below]
    exact lookup_filter_of_drop fun _ => by simpa using below
  · rw [if_neg below]
    refine lookup_filter_of_keep fun _ => ?_
    simpa [← List.isPrefixOf_iff_prefix] using below

end FileTree

end Slotwise
