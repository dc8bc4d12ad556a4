import Slotwise.Proofs.Execution
import Slotwise.Proofs.Regeneration
/-!
# Packages that clearing spares

A record or variant set goes to the package that it declares, beside code of others, so only the
directories of other kinds are cleared before a plan is written. These end in the folder of their kind.
But nothing keeps a record from a package of that name: the products that come along with a record of
two fields or more go to the products of its domain, and this directory is cleared, with the record's
package where it lies there.

Main statements: which directories clearing spares, and whose it does not (`spares_iff`); and a record
whose package is cleared (`not_spares_products`).
-/

namespace Slotwise

namespace Task

/-- The package of this kind in the domain of a record or variant set that its code needs. -/
inductive Brings : Task → Kind → Prop where
  /-- The product that a record is taken for. -/
  | productOfRecord {index : Nat} {record : Record} (wide : 2 ≤ record.fields.length) :
      Brings (.lens index record) .products
  /-- The sum that a variant set is taken for. -/
  | sumOfVariantSet {index : Nat} {set : VariantSet} : Brings (.prism index set) .sums
  /-- The product that a variant is taken for. -/
  | productOfVariant {index : Nat} {set : VariantSet} {variant : Variant}
      (member : variant ∈ set.variants) (wide : 2 ≤ variant.fields.length) :
      Brings (.prism index set) .products

theorem Brings.isManaged {task : Task} {kind : Kind} (brings : task.Brings kind) :
    kind.isManaged = true := by
  cases brings <;> rfl

/-- Whether the task is a record's. -/
def isLens : Task → Bool
  | lens _ _ => true
  | _ => false

theorem isLens_iff {task : Task} :
    task.isLens = true ↔ ∃ index record, task = .lens index record := by
  cases task <;> simp [isLens]

end Task

namespace Plan

open Naming Disk DiskStep

variable {request : Request} {plan : Plan}

/-! ## Packages that come along -/

/-- The families that optics bring along are requested with them. -/
theorem Requested.exists_brought {job : Job} {kind : Kind} (requested : Requested request job)
    (brings : job.task.Brings kind) :
    ∃ other, Requested request other ∧ other.task.kind = kind ∧
      other.place = domainPackage job.place kind := by
  cases requested with
  | product | sum => cases brings
  | arithmetic _ _ among =>
    obtain ⟨width, -, -, rfl⟩ | rfl := mem_arithmeticJobs_iff.1 among <;> cases brings
  | duality _ _ among =>
    simp only [dualityJobs, List.mem_cons, List.not_mem_nil, or_false] at among
    obtain rfl | rfl | rfl := among <;> cases brings
  | evolvingProduct _ _ among =>
    simp only [evolvingProductJobs, List.mem_cons, List.not_mem_nil, or_false] at among
    obtain rfl | rfl := among <;> cases brings
  | evolvingSum _ _ among =>
    simp only [evolvingSumJobs, List.mem_cons, List.not_mem_nil, or_false] at among
    obtain rfl | rfl | rfl := among <;> cases brings
  | keys kept among =>
    obtain ⟨group, index, -, rfl⟩ := mem_keyJobs kept among
    cases brings
  | lens found among =>
    obtain ⟨-, rfl⟩ | rfl | rfl := mem_lensJobs_iff.1 among
    · cases brings
    · cases brings
    · cases brings with
      | productOfRecord wide =>
        exact ⟨_, .lens found (mem_lensJobs_iff.2 (.inl ⟨wide, rfl⟩)), rfl, rfl⟩
  | prism found among =>
    obtain rfl | ⟨variant, -, -, rfl⟩ | rfl | rfl := mem_prismJobs_iff.1 among
    · cases brings
    · cases brings
    · cases brings
    · cases brings with
      | sumOfVariantSet => exact ⟨_, .prism found (mem_prismJobs_iff.2 (.inl rfl)), rfl, rfl⟩
      | productOfVariant member wide =>
        exact ⟨_, .prism found (mem_prismJobs_iff.2 (.inr (.inl ⟨_, member, wide, rfl⟩))), rfl, rfl⟩

theorem Planned.exists_brought (planned : Planned request plan) {job : Job}
    (member : job ∈ plan.jobs) {kind : Kind} (brings : job.task.Brings kind) :
    ∃ other ∈ plan.jobs, other.task.kind = kind ∧ other.place = domainPackage job.place kind := by
  obtain requested | ⟨type, -, marks⟩ := planned.mem_jobs_iff.1 member
  · obtain ⟨other, among, found⟩ := requested.exists_brought brings
    exact ⟨other, planned.mem_jobs_iff.2 (.inl among), found⟩
  · obtain ⟨_, -, rfl⟩ | ⟨_, -, rfl⟩ := mem_markerJobs_iff.1 marks <;> cases brings

/-! ## What clearing spares -/

/-- Clearing what the plan owns does not take the directory along. -/
def Spares (plan : Plan) (directory : FilePath) : Prop :=
  ∀ owned ∈ plan.managedDirectories, ¬owned.components <+: directory.components

/-- The directory of a job is cleared under one of its spellings, if the generator owns it. -/
theorem exists_managed_of_job {job : Job} (member : job ∈ plan.jobs)
    (managed : job.task.kind.isManaged = true) :
    ∃ owned ∈ plan.managedDirectories, owned.components = job.place.directory.components := by
  have among : job.place.directory ∈ ((plan.jobs.filter fun job => job.task.kind.isManaged).map
      fun job => job.place.directory).reverse :=
    List.mem_reverse.2 (List.mem_map.2 ⟨job, List.mem_filter.2 ⟨member, managed⟩, rfl⟩)
  obtain ⟨owned, inside, same⟩ := @Ordered.exists_mem_sortedSet _ FilePath.compare _ _ _ among
  exact ⟨owned, inside, (FilePath.compare_eq_iff.1 same).symm⟩

theorem spares_iff_of_jobs {directory : FilePath} :
    plan.Spares directory ↔ ∀ job ∈ plan.jobs, job.task.kind.isManaged = true →
      ¬job.place.directory.components <+: directory.components := by
  constructor
  · intro spares job member managed above
    obtain ⟨owned, inside, same⟩ := exists_managed_of_job member managed
    rw [← same] at above
    exact spares owned inside above
  · intro spares owned inside
    obtain ⟨job, member, managed, rfl⟩ := exists_job_of_managed inside
    exact spares job member managed

theorem spares_iff_of_names (planned : Planned request plan) {directory : FilePath} :
    plan.Spares directory ↔ ∀ before name after,
      directory.components = before ++ FilePath.Component.entry name :: after →
      ∀ job ∈ plan.jobs, job.task.kind.isManaged = true → job.task.kind.Ends name →
        job.place.directory.components ≠ before ++ [FilePath.Component.entry name] := by
  rw [spares_iff_of_jobs]
  constructor
  · intro spares before name after split_ job member managed _ same
    refine spares job member managed ⟨after, ?_⟩
    rw [same, split_, List.append_assoc, List.singleton_append]
  · rintro named job member managed ⟨after, split_⟩
    obtain ⟨above, name, same, ends⟩ := planned.exists_push member managed
    rw [same, FilePath.components_push above ends.isPlain, List.append_assoc,
      List.singleton_append] at split_
    refine named above.components name after split_.symm job member managed ends ?_
    rw [same, FilePath.components_push above ends.isPlain]

/-- Clearing spares a directory just if no directory above it, or itself, is that of a job whose kind's
folder ends its name. So it spares every directory that no name of a kind's folder leads through. It
does not spare a record or variant set in or below a package of its domain that its code brings
along. -/
theorem spares_iff (h : ofRequest request = .ok plan) :
    (∀ directory : FilePath, plan.Spares directory ↔ ∀ before name after,
      directory.components = before ++ .entry name :: after →
      ∀ job ∈ plan.jobs, job.task.kind.isManaged = true → job.task.kind.Ends name →
        job.place.directory.components ≠ before ++ [.entry name]) ∧
    (∀ directory : FilePath, (∀ name, .entry name ∈ directory.components →
      ∀ kind : Kind, kind.isManaged = true → ¬kind.Ends name) → plan.Spares directory) ∧
    ∀ job ∈ plan.jobs, ∀ kind, job.task.Brings kind →
      (domainPackage job.place kind).directory.components <+: job.place.directory.components →
      ¬plan.Spares job.place.directory := by
  have planned := planned_of_ofRequest h
  refine ⟨fun directory => spares_iff_of_names planned, fun directory plain => ?_,
    fun job member kind brings above spares => ?_⟩
  · refine (spares_iff_of_names planned).2 fun before name after split_ job _ managed ends => ?_
    have inside : .entry name ∈ directory.components := by
      rw [split_]
      exact List.mem_append_right _ List.mem_cons_self
    exact absurd ends (plain name inside _ managed)
  · obtain ⟨other, among, rfl, place⟩ := planned.exists_brought member brings
    rw [← place] at above
    exact spares_iff_of_jobs.1 spares other among brings.isManaged above

/-! ## Records in packages of families -/

/-- The request for a record of two fields in this package, without module indexes. -/
def pointIn (package : String) : Request :=
  declaring [{ (single "Point" (TypeRef.named "f64")).withField (.new "y" (TypeRef.named "f64")) with
    location := .inPackage package }] []

/-- Its plan, where the package is called after no family. -/
def shapesPlan : { plan : Plan // ofRequest (pointIn "shapes") = .ok plan ∧
    (plan.jobs.any (fun job => job.task.isLens &&
        job.place.directory.components = [.entry "src", .entry "shapes"]) &&
      plan.managedDirectories ≠ []) = true } :=
  passing <| by
    simp only [ofRequest, allJobs, managedDirectories, Ordered.sortedSet_eq_foldr]
    decide +kernel

/-- The products that come along with the record are cleared, and the package of the record is not. -/
theorem spares_shapes :
    ∃ plan, ofRequest (pointIn "shapes") = .ok plan ∧ plan.managedDirectories ≠ [] ∧
      ∃ job ∈ plan.jobs, (∃ index record, job.task = .lens index record) ∧
        job.place.directory.components = [.entry "src", .entry "shapes"] ∧
        plan.Spares job.place.directory := by
  obtain ⟨plan, planned, passed⟩ := shapesPlan
  simp only [Bool.and_eq_true, List.any_eq_true, decide_eq_true_eq] at passed
  obtain ⟨⟨job, member, lens, directory⟩, owns⟩ := passed
  have plain : ∀ name ∈ ["src", "shapes"], ∀ kind ∈ Kind.all, ∀ folder ∈ kind.folder?,
      name ≠ folder ∧ name ≠ ":" ++ folder := by
    decide +kernel
  refine ⟨plan, planned, owns, job, member, Task.isLens_iff.1 lens, directory,
    (spares_iff planned).2.1 _ fun name inside kind managed ends => ?_⟩
  obtain ⟨folder, given, known⟩ := ends
  have among : name ∈ ["src", "shapes"] := by
    rw [directory] at inside
    simpa using inside
  obtain ⟨differs, differs'⟩ := plain name among kind kind.mem_all folder given
  exact known.elim differs differs'

/-- A tree with a file in the directory `src/products`. -/
def handWritten : FileTree :=
  ⟨[(["src"], .directory), (["src", "products"], .directory),
    (["src", "products", "hand.rs"], .file "// mine")]⟩

/-- The plan where the package is called after a family. -/
def productsPlan : { plan : Plan // ofRequest (pointIn "products") = .ok plan ∧
    (plan.jobs.any (fun job => job.task.isLens &&
        plan.managedDirectories.any fun owned =>
          owned.components.isPrefixOf job.place.directory.components) &&
      leaves (runAll (clearing ⟨""⟩ plan.managedDirectories)) handWritten
        fun last => last.get? ["src", "products", "hand.rs"] = none) = true } :=
  passing <| by
    simp only [ofRequest, allJobs, managedDirectories, Ordered.sortedSet_eq_foldr]
    decide +kernel

/-- The package of a record is that of the products in its domain, and what stands there beside the
record goes when it is cleared. -/
theorem not_spares_products :
    ∃ plan, ofRequest (pointIn "products") = .ok plan ∧
      (∃ job ∈ plan.jobs, (∃ index record, job.task = .lens index record) ∧
        ¬plan.Spares job.place.directory) ∧
      ∃ last, runAll (clearing ⟨""⟩ plan.managedDirectories) handWritten = .ok () last ∧
        last.get? ["src", "products", "hand.rs"] = none := by
  obtain ⟨plan, planned, passed⟩ := productsPlan
  simp only [Bool.and_eq_true, List.any_eq_true] at passed
  obtain ⟨⟨job, member, lens, owned, inside, above⟩, left⟩ := passed
  obtain ⟨last, cleared, gone⟩ := exists_of_leaves left
  rw [decide_eq_true_iff] at gone
  exact ⟨plan, planned, ⟨job, member, Task.isLens_iff.1 lens, fun spares =>
    spares owned inside (List.isPrefixOf_iff_prefix.1 above)⟩, last, cleared, gone⟩

end Plan

end Slotwise
