import Slotwise.Check.Request
import Slotwise.Job
import Slotwise.Optics.Shape
import Slotwise.Propagation
/-!
# Plans

A plan is the set of jobs for a request: everything the request names, and everything that the code
of those jobs refers to. No two jobs of a plan write one file.
-/

namespace Slotwise

/-- The jobs for a request, in order and each once. -/
structure Plan where
  /-- The request, with serialization spread to everything that needs it. -/
  request : Request
  /-- The jobs. -/
  jobs : List Job
deriving Repr

namespace Plan

open Naming

/-- The place of a family of `kind` for a location of a selection. -/
def familyPlace (request : Request) (kind : Kind) (location : Location) : Place :=
  sibling (location.resolve request.output "") kind

/-- The package of `kind` directly below the domain of a place. -/
def domainPackage (place : Place) (kind : Kind) : Place :=
  place.withPackage (derivePackage kind "")

/-- Where a record or variant set at a place finds the code that it builds on. -/
def surroundings (place : Place) : Optics.Surroundings :=
  ⟨domainPackage place .products, domainPackage place .sums, domainPackage place .lenses⟩

/-- The dimensions of a selection with their places for files of `kind`. -/
def selected (request : Request) (kind : Kind) (selection : Option Selection) :
    Except Failure (List (Nat × Place)) :=
  match selection with
  | none => .ok []
  | some selection =>
    match (selection.modularize request.module).simplify with
    | .error error => .error (.model error)
    | .ok choices =>
      .ok (choices.map fun choice =>
        (choice.dimension, familyPlace request kind choice.location))

/-! ## Jobs by capability -/

/-- The product beside a place. -/
def productBeside (place : Place) (dimension : Nat) : Job :=
  ⟨.product dimension, sibling place .products⟩

/-- The sum beside a place. -/
def sumBeside (place : Place) (dimension : Nat) : Job :=
  ⟨.sum dimension, sibling place .sums⟩

/-- The jobs for arithmetic: every product up to the dimension comes along. -/
def arithmeticJobs (dimension : Nat) (place : Place) : List Job :=
  (List.range' 2 (dimension - 1)).map (fun width => ⟨.product width, place⟩) ++
    [⟨.arithmetic dimension, place⟩]

/-- The jobs for duality. -/
def dualityJobs (dimension : Nat) (place : Place) : List Job :=
  [productBeside place dimension, sumBeside place dimension, ⟨.duality dimension, place⟩]

/-- The jobs for the evolution of products. -/
def evolvingProductJobs (dimension : Nat) (place : Place) : List Job :=
  [productBeside place dimension, ⟨.evolvingProduct dimension, place⟩]

/-- The jobs for the evolution of sums. -/
def evolvingSumJobs (dimension : Nat) (place : Place) : List Job :=
  [productBeside place dimension, sumBeside place dimension, ⟨.evolvingSum dimension, place⟩]

/-- The jobs for the selections of a request. -/
def familyJobs (request : Request) : Except Failure (List Job) := do
  let products ← selected request .products request.products
  let sums ← selected request .sums request.sums
  let arithmetics ← selected request .products request.arithmetics
  let dualities ← selected request .duality request.dualities
  let evolvingProducts ← selected request .evolution request.evolvingProducts
  let evolvingSums ← selected request .evolution request.evolvingSums
  return products.map (fun (d, place) => ⟨.product d, place⟩) ++
    sums.map (fun (d, place) => ⟨.sum d, place⟩) ++
    arithmetics.flatMap (fun (d, place) => arithmeticJobs d place) ++
    dualities.flatMap (fun (d, place) => dualityJobs d place) ++
    evolvingProducts.flatMap (fun (d, place) => evolvingProductJobs d place) ++
    evolvingSums.flatMap (fun (d, place) => evolvingSumJobs d place)

/-- The jobs for key groups behind those that were `seen`. A group that is declared again gives no
job of its own, but has to have the same number of keys. -/
def keyJobsAfter (request : Request) (seen : List (KeyGroup × Place)) :
    List (KeyGroup × Nat) → Except Failure (List Job)
  | [] => .ok []
  | (group, index) :: rest => do
    let place := familyPlace request .keys group.location
    match seen.find? fun (other, at_) => other.stem == group.stem && at_ == place with
    | some (first, _) =>
      if first.count = group.count then keyJobsAfter request seen rest
      else throw (.conflictingKeyGroup group.stem first.count group.count)
    | none =>
      return ⟨.keys index group, place⟩ ::
        (← keyJobsAfter request (seen ++ [(group, place)]) rest)

/-- The jobs for the key groups of a request. -/
def keyJobs (request : Request) : Except Failure (List Job) :=
  keyJobsAfter request [] request.keys.zipIdx

/-- The product of a width, where there is one. -/
def productOfWidth (place : Place) (width : Nat) : List Job :=
  if width ≥ 2 then [⟨.product width, place⟩] else []

/-- The jobs for a record. -/
def lensJobs (request : Request) (record : Record) (index : Nat) : List Job :=
  let place := opticsPlace .lenses record.location request.output
  let around := surroundings place
  productOfWidth around.products record.fields.length ++
    [⟨.setters, around.support⟩, ⟨.lens index record, place⟩]

/-- The jobs for a variant set. -/
def prismJobs (request : Request) (set : VariantSet) (index : Nat) : List Job :=
  let place := opticsPlace .prisms set.location request.output
  let around := surroundings place
  [⟨.sum set.variants.length, around.sums⟩] ++
    set.variants.flatMap (fun variant =>
      productOfWidth around.products variant.fields.length) ++
    [⟨.setters, around.support⟩, ⟨.prism index set, place⟩]

/-- The marking trait that a job's type implements. -/
def markerJobs (job : Job) : List Job :=
  match job.task with
  | .product _ => [⟨.productMarker, job.place⟩]
  | .sum _ => [⟨.sumMarker, job.place⟩]
  | _ => []

/-! ## Plans for requests -/

/-- Passes if none of the jobs writes a file of another one or of a job in `seen`, where the
components of every path stand beside its job. -/
def checkPathsAfter (seen : List (List FilePath.Component × Job)) :
    List (List FilePath.Component × Job) → Except Failure Unit
  | [] => .ok ()
  | (components, job) :: rest =>
    match seen.find? fun other => other.1 == components with
    | some (_, first) =>
      .error (.clashingFiles first.task.title job.task.title job.path.text)
    | none => checkPathsAfter ((components, job) :: seen) rest

/-- Passes if no two jobs write one file. -/
def checkPaths (jobs : List Job) : Except Failure Unit :=
  checkPathsAfter [] (jobs.map fun job => (job.path.components, job))

/-- All jobs for a request, in order and each once. -/
def allJobs (request : Request) : Except Failure (List Job) := do
  let families ← familyJobs request
  let keys ← keyJobs request
  let jobs := families ++ keys ++
    (request.records.zipIdx.flatMap fun (record, i) => lensJobs request record i) ++
    request.variantSets.zipIdx.flatMap fun (set, i) => prismJobs request set i
  return Ordered.sortedSet Job.compare (jobs ++ jobs.flatMap markerJobs)

/-- The plan for a request. -/
def ofRequest (request : Request) : Except Failure Plan := do
  Check.request request
  let request := request.propagated
  let jobs ← allJobs request
  checkPaths jobs
  return ⟨request, jobs⟩

/-- The directories that the generator owns. Of two ways to write one directory the last in the
order of jobs counts. -/
def managedDirectories (plan : Plan) : List FilePath :=
  Ordered.sortedSet FilePath.compare
    ((plan.jobs.filter fun job => job.task.kind.isManaged).map fun job =>
      job.place.directory).reverse

end Plan

end Slotwise
