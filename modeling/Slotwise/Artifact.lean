import Slotwise.Code.Layout
import Slotwise.Family.Arithmetic
import Slotwise.Family.Duality
import Slotwise.Family.Evolution
import Slotwise.Keys
import Slotwise.ModuleIndex
import Slotwise.Optics.Lens
import Slotwise.Optics.Prism
import Slotwise.Optics.Support
import Slotwise.Plan
/-!
# Artifacts

An artifact is a generated file with its path below the output root. The artifacts of a plan are the
files of its jobs and, where the request asks for them, the module indexes of their directories,
sorted by path. Nothing is an artifact unless all of them can be generated.
-/

namespace Slotwise

/-- A generated file. -/
structure Artifact where
  /-- The kind of the file. -/
  kind : Kind
  /-- The name of the file's content in summaries. -/
  name : String
  /-- Where the file goes, below the output root. -/
  path : FilePath
  /-- The text of the file. -/
  content : String
deriving DecidableEq, Repr

namespace Job

/-- The code of a job's file. -/
def code (job : Job) : Except Failure Code.File :=
  let products := Naming.sibling job.place .products
  let sums := Naming.sibling job.place .sums
  match job.task with
  | .productMarker => .ok Family.Product.marker
  | .product dimension => Family.Product.file dimension job.place
  | .arithmetic dimension => Family.Arithmetic.file dimension job.place
  | .sumMarker => .ok Family.Sum.marker
  | .sum dimension => Family.Sum.file dimension job.place
  | .duality dimension => Family.Duality.file dimension products sums
  | .evolvingProduct dimension => Family.Evolution.productFile dimension products
  | .evolvingSum dimension => Family.Evolution.sumFile dimension products sums
  | .keys _ group => Keys.file group job.place
  | .setters => .ok Optics.Support.file
  | .lens _ record => Optics.Lens.file record (Plan.surroundings job.place)
  | .prism _ set => Optics.Prism.file set (Plan.surroundings job.place)

/-- The artifact of a job. -/
def artifact (job : Job) : Except Failure Artifact := do
  let content ← (← job.code).render
  return ⟨job.task.kind, job.task.title, job.path, content⟩

/-- What the job contributes to module indexes: each directory from `directory` down with the module
that leads on from there, the job's own module last. -/
def indexedBelow (directory : FilePath) (module : String) : List String → List (FilePath × String)
  | [] => [(directory, module)]
  | segment :: rest =>
    (directory, segment) :: indexedBelow (directory.push segment) module rest

/-- What the job contributes to module indexes. Above a domain is code of others, so the source root
is indexed only where the domain is empty. -/
def indexed (job : Job) : List (FilePath × String) :=
  let all := indexedBelow ⟨job.place.sourceRoot⟩ job.task.fileModule job.place.segments
  if (ModulePath.segments job.place.domain).isEmpty then all else all.drop 1

end Job

/-- A directory with the modules in it. -/
structure IndexedDirectory where
  /-- The directory. -/
  directory : FilePath
  /-- Its modules, files and directories alike. -/
  modules : List String

namespace Plan

/-- The directories of a plan with their modules, in order. -/
def indexedDirectories (plan : Plan) : List IndexedDirectory :=
  let entries := plan.jobs.flatMap Job.indexed
  (Ordered.sortedSet FilePath.compare (entries.map (·.1))).map fun directory =>
    ⟨directory, (entries.filter fun entry => entry.1.same directory).map (·.2)⟩

/-- Whether the directory is the root of a crate: the source root of a job without domain. -/
def isCrateRoot (plan : Plan) (directory : FilePath) : Bool :=
  plan.jobs.any fun job =>
    (ModulePath.segments job.place.domain).isEmpty &&
      FilePath.same ⟨job.place.sourceRoot⟩ directory

/-- The module index of a directory. -/
def index (plan : Plan) (indexed : IndexedDirectory) : Except Failure Artifact := do
  let directory := indexed.directory
  let (file, doc) :=
    if plan.isCrateRoot directory then ("lib.rs", "Generated algebraic types.")
    else ("mod.rs", "Generated modules in `" ++ directory.text ++ "`.")
  let content ← (← ModuleIndex.file doc indexed.modules).render
  return ⟨.index, directory.text, directory.push file, content⟩

/-- The directories that get a module index: those that the generator owns, and all others if the
request asks for it. -/
def directoriesToIndex (plan : Plan) : List IndexedDirectory :=
  let managed := plan.managedDirectories
  plan.indexedDirectories.filter fun indexed =>
    plan.request.output.rootIndex || managed.any fun other => other.same indexed.directory

/-- The module indexes of a plan. -/
def indexes (plan : Plan) : Except Failure (List Artifact) :=
  if plan.request.output.moduleIndex then plan.directoriesToIndex.mapM plan.index else .ok []

/-- The artifacts of a plan, sorted by path. -/
def artifacts (plan : Plan) : Except Failure (List Artifact) := do
  let files ← plan.jobs.mapM Job.artifact
  let indexes ← plan.indexes
  return (files ++ indexes).mergeSort fun a b => (a.path.compare b.path).isLE

end Plan

end Slotwise
