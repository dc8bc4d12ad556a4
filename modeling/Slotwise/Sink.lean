import Slotwise.Artifact
import Slotwise.FileTree
/-!
# Writing artifacts

The steps that bring artifacts to disk: first the directories that the generator owns are cleared,
then each file is written. A file is written beside its place and then moved there, so that its
place never holds a part of it. The first step that fails is the last one taken.
-/

namespace Slotwise

/-- A computation on a file tree. What was done before a failure stays done. -/
abbrev Disk := EStateM Failure FileTree

/-- A step on disk. -/
inductive DiskStep where
  /-- Removes a directory with everything in it. -/
  | clear (directory : FilePath)
  /-- Writes a file. -/
  | write (path : FilePath) (content : String)
deriving DecidableEq, Repr

namespace Disk

/-- An operation on the tree, with the failure that stands for its error. -/
def attempt (operation : FileTree → Except DiskError FileTree) (failure : DiskError → Failure) :
    Disk Unit := fun tree =>
  match operation tree with
  | .ok tree => .ok () tree
  | .error error => .error (failure error) tree

/-- Where a file is written before it is moved to its path. -/
def temporary (path : FilePath) : FilePath :=
  path.withExtension "tmp"

/-- Makes the directories that a file's path leads through. -/
def makeParents (path : FilePath) : Disk Unit :=
  match path.parent? with
  | none => pure ()
  | some parent =>
    if parent.text = "" then pure ()
    else attempt (·.makeDirectories parent) (.unwritable parent.text)

/-- Writes a file. -/
def write (path : FilePath) (content : String) : Disk Unit := do
  makeParents path
  attempt (·.write (temporary path) content) (.unwritable (temporary path).text)
  attempt (·.rename (temporary path) path) (.unwritable path.text)

/-- Removes a directory with everything in it. -/
def clear (directory : FilePath) : Disk Unit := fun tree =>
  match tree.clear directory with
  | (tree, none) => .ok () tree
  | (tree, some error) => .error (.unclearable directory.text error) tree

end Disk

namespace DiskStep

/-- What a step does. -/
def run : DiskStep → Disk Unit
  | clear directory => Disk.clear directory
  | write path content => Disk.write path content

/-- What steps do, one after another. -/
def runAll : List DiskStep → Disk Unit
  | [] => pure ()
  | step :: rest => do
    step.run
    runAll rest

/-- The path below a root, where an absolute path stands alone. -/
def below (root path : FilePath) : FilePath :=
  root.push path.text

/-- The steps that clear directories below a root. -/
def clearing (root : FilePath) (directories : List FilePath) : List DiskStep :=
  directories.map fun directory => clear (below root directory)

/-- The steps that write files below a root in place of all files in these directories. -/
def replacing (root : FilePath) (directories : List FilePath)
    (files : List (FilePath × String)) : List DiskStep :=
  clearing root directories ++ files.map fun (path, content) => write (below root path) content

/-- The steps that write artifacts below a root in place of all files in these directories. -/
def ofArtifacts (root : FilePath) (directories : List FilePath) (artifacts : List Artifact) :
    List DiskStep :=
  replacing root directories (artifacts.map fun artifact => (artifact.path, artifact.content))

end DiskStep

end Slotwise
