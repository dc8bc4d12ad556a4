import Slotwise.Naming
import Slotwise.Request
/-!
# Jobs

A job generates one file: a task at a place. Jobs are ordered by task, then by dimension or by the
number of the declaration, then by place.
-/

namespace Slotwise

/-- What one file is to hold. -/
inductive Task where
  /-- The trait that marks products. -/
  | productMarker
  /-- The product type of a dimension. -/
  | product (dimension : Nat)
  /-- The arithmetic of products of a dimension. -/
  | arithmetic (dimension : Nat)
  /-- The trait that marks sums. -/
  | sumMarker
  /-- The sum type of a dimension. -/
  | sum (dimension : Nat)
  /-- The duality of a dimension. -/
  | duality (dimension : Nat)
  /-- The evolution of products of a dimension. -/
  | evolvingProduct (dimension : Nat)
  /-- The evolution of sums of a dimension. -/
  | evolvingSum (dimension : Nat)
  /-- A group of keys, with its number among the groups of the request. -/
  | keys (index : Nat) (group : KeyGroup)
  /-- The setters that lenses and prisms build on. -/
  | setters
  /-- A record, with its number among the records of the request. -/
  | lens (index : Nat) (record : Record)
  /-- A variant set, with its number among the variant sets of the request. -/
  | prism (index : Nat) (set : VariantSet)
deriving Repr

namespace Task

/-- The place of the task's form in the order of tasks. -/
def rank : Task → Nat
  | productMarker => 0
  | product _ => 1
  | arithmetic _ => 2
  | sumMarker => 3
  | sum _ => 4
  | duality _ => 5
  | evolvingProduct _ => 6
  | evolvingSum _ => 7
  | keys _ _ => 8
  | setters => 9
  | lens _ _ => 10
  | prism _ _ => 11

/-- The dimension or the number of the declaration. -/
def number? : Task → Option Nat
  | productMarker | sumMarker | setters => none
  | product d | arithmetic d | sum d | duality d | evolvingProduct d | evolvingSum d => some d
  | keys i _ | lens i _ | prism i _ => some i

/-- The kind of the file. -/
def kind : Task → Kind
  | productMarker | product _ | arithmetic _ => .products
  | sumMarker | sum _ => .sums
  | duality _ => .duality
  | evolvingProduct _ | evolvingSum _ => .evolution
  | keys _ _ => .keys
  | setters | lens _ _ => .lenses
  | prism _ _ => .prisms

/-- The module of the file. -/
def fileModule : Task → String
  | productMarker => Naming.productMarkerModule
  | product d => Naming.productModule d
  | arithmetic d => s!"product_arithmetic_{d}"
  | sumMarker => Naming.sumMarkerModule
  | sum d => Naming.sumModule d
  | duality d => s!"duality_{d}"
  | evolvingProduct d => s!"evolving_product_{d}"
  | evolvingSum d => s!"evolving_sum_{d}"
  | keys _ group => Naming.keysModule group.stem
  | setters => Naming.functionsModule
  | lens _ record => Naming.snakeCase record.name
  | prism _ set => Naming.snakeCase set.name

/-- The name of the file's content in summaries. -/
def title : Task → String
  | productMarker => Naming.productMarkerModule
  | sumMarker => Naming.sumMarkerModule
  | setters => Naming.functionsModule
  | product d | arithmetic d | sum d | duality d | evolvingProduct d | evolvingSum d => toString d
  | keys _ group => group.stem
  | lens _ record => record.name
  | prism _ set => set.name

end Task

/-- A task at a place. -/
structure Job where
  /-- What the file is to hold. -/
  task : Task
  /-- Where the file goes. -/
  place : Place
deriving Repr

namespace Job

/-- The order of jobs. -/
def compare (j₁ j₂ : Job) : Ordering :=
  (Ord.compare j₁.task.rank j₂.task.rank).then
    ((Ord.compare (j₁.task.number?.getD 0) (j₂.task.number?.getD 0)).then
      (j₁.place.compare j₂.place))

/-- The path of the job's file. -/
def path (job : Job) : FilePath :=
  job.place.directory.push (job.task.fileModule ++ ".rs")

end Job

end Slotwise
