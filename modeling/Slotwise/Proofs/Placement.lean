import Slotwise.Artifact
import Slotwise.Proofs.Order
import Slotwise.Proofs.Plan
import Slotwise.Proofs.Sink
/-!
# Where files of plans go

Every artifact is a source file, and every directory that the generator owns ends in the folder of a
kind, however the packages of a request are written. So none of these paths can be taken for one that
ends in a dot or two.
-/

namespace Slotwise

namespace ModulePath

/-- What stands behind a pair of colons is a piece of its own, if not for a third colon before it. -/
theorem exists_last_piece (cs : List Char) {end_ : List Char} (free : ':' ∉ end_) :
    ∃ first before last, (pieces (cs ++ ':' :: ':' :: end_)).1 ::
        (pieces (cs ++ ':' :: ':' :: end_)).2 = first :: before ++ [last] ∧
      (last = end_ ∨ last = ':' :: end_) := by
  fun_induction pieces cs with
  | case1 =>
    refine ⟨[], [], end_, ?_, .inl rfl⟩
    rw [List.nil_append, pieces, pieces_of_colonFree free]
    rfl
  | case2 rest ih =>
    obtain ⟨first, before, last, split_, known⟩ := ih
    refine ⟨[], first :: before, last, ?_, known⟩
    rw [List.cons_append, List.cons_append, pieces, split_]
    rfl
  | case3 c rest noPair ih =>
    by_cases third : c = ':' ∧ rest = []
    · obtain ⟨rfl, rfl⟩ := third
      have joined : pieces (':' :: end_) = (':' :: end_, []) := by
        rw [pieces, pieces_of_colonFree free]
        exact fun tail _ pair => free (by simp [pair])
      refine ⟨[], [], ':' :: end_, ?_, .inr rfl⟩
      rw [List.singleton_append, pieces, joined]
      rfl
    · obtain ⟨first, before, last, split_, known⟩ := ih
      have whole : pieces (c :: rest ++ ':' :: ':' :: end_) =
          (c :: (pieces (rest ++ ':' :: ':' :: end_)).1,
            (pieces (rest ++ ':' :: ':' :: end_)).2) := by
        rw [List.cons_append, pieces]
        intro tail colon pair
        cases rest with
        | nil => exact third ⟨colon, rfl⟩
        | cons d rest => exact noPair rest colon (by rw [(List.cons.inj pair).1])
      obtain ⟨head, tail⟩ := List.cons.inj split_
      exact ⟨c :: first, before, last, by rw [whole, head, tail]; rfl, known⟩

theorem toList_ofSegments_concat (first : String) (before : List String) :
    ∃ cs, ∀ last, (ofSegments (first :: before ++ [last])).toList =
      cs ++ ':' :: ':' :: last.toList := by
  induction before generalizing first with
  | nil =>
    refine ⟨first.toList, fun last => ?_⟩
    rw [ofSegments, List.singleton_append, String.intercalate_cons_cons, String.intercalate_singleton,
      String.toList_append, String.toList_append]
    simp
  | cons next rest ih =>
    obtain ⟨cs, joined⟩ := ih next
    refine ⟨first.toList ++ "::".toList ++ cs, fun last => ?_⟩
    rw [ofSegments, List.cons_append, List.cons_append, String.intercalate_cons_cons,
      ← List.cons_append, String.toList_append, String.toList_append, ← ofSegments, joined,
      List.append_assoc, List.append_assoc, List.append_assoc]

/-- What stands before the last segment does not depend on it. -/
theorem exists_front_ofSegments (before : List String) :
    ∃ front, ∀ last, (ofSegments (before ++ [last])).toList = front ++ last.toList := by
  cases before with
  | nil =>
    refine ⟨[], fun last => ?_⟩
    rw [ofSegments, List.nil_append, String.intercalate_singleton, List.nil_append]
  | cons first before =>
    obtain ⟨cs, joined⟩ := toList_ofSegments_concat first before
    refine ⟨cs ++ [':', ':'], fun last => ?_⟩
    rw [joined, List.append_assoc]
    rfl

/-- The last segment that was written is the last one to be read, if not for a colon before it, which
the segments before can have at their end. -/
theorem exists_last_segment (before : List String) {last : String} (plain : Plain last) :
    ∃ front segment, segments (ofSegments (before ++ [last])) = front ++ [segment] ∧
      (segment = last ∨ segment = ":" ++ last) := by
  cases before with
  | nil =>
    refine ⟨[], last, ?_, .inl rfl⟩
    rw [List.nil_append, ofSegments, String.intercalate_singleton]
    exact plain.segmentsOf
  | cons first before =>
    obtain ⟨cs, joined⟩ := toList_ofSegments_concat first before
    obtain ⟨head, pieces_, piece, split_, known⟩ := exists_last_piece cs plain.colonFree
    have kept : Text.trimmed piece = piece ∧ piece ≠ [] := by
      obtain rfl | rfl := known
      · exact ⟨Text.trimmed_of_bare plain.bare, plain.nonempty⟩
      · refine ⟨Text.trimmed_of_bare ⟨fun c first => ?_, fun c end_ => plain.bare.2 c ?_⟩,
          List.cons_ne_nil _ _⟩
        · cases first
          decide
        · rwa [List.getLast?_cons_of_ne_nil plain.nonempty] at end_
    refine ⟨(((head :: pieces_).map Text.trimmed).filter (· ≠ [])).map String.ofList,
      String.ofList piece, ?_, ?_⟩
    · rw [segments, joined last]
      simp only [split_, List.map_append, List.filter_append]
      simp [kept]
    · refine known.imp (fun same => ?_) fun same => ?_ <;> rw [same]
      · exact String.ofList_toList
      · exact (String.ofList_cons).trans (by rw [String.ofList_toList]; rfl)

end ModulePath

/-- A name that ends the packages of a kind: its folder, with a colon before it where the text of a
package makes one. -/
def Kind.Ends (kind : Kind) (name : String) : Prop :=
  ∃ folder, kind.folder? = some folder ∧ (name = folder ∨ name = ":" ++ folder)

theorem Kind.Ends.isPlain {kind : Kind} {name : String} (ends : kind.Ends name) :
    FilePath.IsPlain name := by
  obtain ⟨folder, given, rfl | rfl⟩ := ends
  · exact FilePath.isPlain_of_isLegal (Naming.isLegal_of_folder? given)
  · have slashFree := (FilePath.isPlain_of_isLegal (Naming.isLegal_of_folder? given)).slashFree
    refine FilePath.isPlain_of_mem (c := ':') ?_ ?_ (by decide) <;> rw [String.toList_append]
    · rw [List.mem_append, not_or]
      exact ⟨by decide, slashFree⟩
    · exact List.mem_append_left _ (by decide)

/-- A place whose package is that of a kind lies in the kind's folder. -/
theorem Place.exists_push {place : Place} {kind : Kind} {folder package : String}
    (given : kind.folder? = some folder)
    (derived : place.package = Naming.derivePackage kind package) :
    ∃ (above : FilePath) (name : String), place.directory = above.push name ∧ kind.Ends name := by
  obtain ⟨before, last, split_, known⟩ := ModulePath.exists_last_segment
    (Naming.packageBase package) (ModulePath.plain_of_isLegal (Naming.isLegal_of_folder? given))
  rw [← Naming.derivePackage_eq given, ← derived] at split_
  refine ⟨(ModulePath.segments place.domain ++ before).foldl FilePath.push ⟨place.sourceRoot⟩, last,
    ?_, folder, given, known⟩
  rw [Place.directory, Place.segments, split_, ← List.append_assoc, List.foldl_append]
  rfl

namespace Plan

open Naming

theorem exists_familyPlace {request : Request} {kind : Kind} {selection : Option Selection}
    {choices : List (Nat × Place)} (h : selected request kind selection = .ok choices)
    {dimension : Nat} {place : Place} (member : (dimension, place) ∈ choices) :
    ∃ package, place.package = derivePackage kind package := by
  cases selection with
  | none =>
    cases h
    cases member
  | some selection =>
    rw [selected] at h
    split at h
    · cases h
    · cases h
      obtain ⟨choice, -, same⟩ := List.mem_map.1 member
      cases same
      exact ⟨_, rfl⟩

theorem exists_siblingPackage (place : Place) (kind : Kind) :
    ∃ package, (sibling place kind).package = derivePackage kind package :=
  ⟨place.package, rfl⟩

/-- Jobs whose directories the generator owns are in packages of their kinds. -/
theorem Requested.exists_package {request : Request} {job : Job} (requested : Requested request job)
    (managed : job.task.kind.isManaged = true) :
    ∃ package, job.place.package = derivePackage job.task.kind package := by
  cases requested with
  | product chosen member => exact exists_familyPlace chosen member
  | sum chosen member => exact exists_familyPlace chosen member
  | arithmetic chosen member among =>
    obtain ⟨width, -, -, rfl⟩ | rfl := mem_arithmeticJobs_iff.1 among <;>
      exact exists_familyPlace chosen member
  | duality chosen member among =>
    simp only [dualityJobs, List.mem_cons, List.not_mem_nil, or_false] at among
    obtain rfl | rfl | rfl := among
    · exact exists_siblingPackage _ .products
    · exact exists_siblingPackage _ .sums
    · exact exists_familyPlace chosen member
  | evolvingProduct chosen member among =>
    simp only [evolvingProductJobs, List.mem_cons, List.not_mem_nil, or_false] at among
    obtain rfl | rfl := among
    · exact exists_siblingPackage _ .products
    · exact exists_familyPlace chosen member
  | evolvingSum chosen member among =>
    simp only [evolvingSumJobs, List.mem_cons, List.not_mem_nil, or_false] at among
    obtain rfl | rfl | rfl := among
    · exact exists_siblingPackage _ .products
    · exact exists_siblingPackage _ .sums
    · exact exists_familyPlace chosen member
  | keys kept among =>
    obtain ⟨group, index, -, rfl⟩ := mem_keyJobs kept among
    exact exists_siblingPackage _ .keys
  | lens found among =>
    obtain ⟨-, rfl⟩ | rfl | rfl := mem_lensJobs_iff.1 among
    · exact ⟨"", rfl⟩
    · exact absurd managed Bool.false_ne_true
    · exact absurd managed Bool.false_ne_true
  | prism found among =>
    obtain rfl | ⟨variant, -, -, rfl⟩ | rfl | rfl := mem_prismJobs_iff.1 among
    · exact ⟨"", rfl⟩
    · exact ⟨"", rfl⟩
    · exact absurd managed Bool.false_ne_true
    · exact absurd managed Bool.false_ne_true

theorem Includes.exists_package {request : Request} {job : Job} (included : Includes request job)
    (managed : job.task.kind.isManaged = true) :
    ∃ package, job.place.package = derivePackage job.task.kind package := by
  obtain requested | ⟨other, requested, marks⟩ := included
  · exact requested.exists_package managed
  · -- a marking trait stands beside the types that it marks
    obtain ⟨dimension, task, rfl⟩ | ⟨dimension, task, rfl⟩ := mem_markerJobs_iff.1 marks <;>
      simpa [task, Task.kind] using requested.exists_package (by rw [task]; rfl)

/-- The directories that the generator owns are those of jobs. -/
theorem exists_job_of_managed {plan : Plan} {directory : FilePath}
    (member : directory ∈ plan.managedDirectories) :
    ∃ job ∈ plan.jobs, job.task.kind.isManaged = true ∧ job.place.directory = directory := by
  have member := Ordered.mem_of_mem_sortedSet member
  simp only [List.mem_reverse, List.mem_map, List.mem_filter] at member
  obtain ⟨job, ⟨among, managed⟩, same⟩ := member
  exact ⟨job, among, managed, same⟩

/-- The directory of a job ends in the folder of its kind, if the generator owns it. -/
theorem Planned.exists_push {request : Request} {plan : Plan} (planned : Planned request plan)
    {job : Job} (member : job ∈ plan.jobs) (managed : job.task.kind.isManaged = true) :
    ∃ (above : FilePath) (name : String), job.place.directory = above.push name ∧
      job.task.kind.Ends name := by
  obtain ⟨package, derived⟩ := (planned.mem_jobs_iff.1 member).exists_package managed
  obtain ⟨folder, given⟩ : ∃ folder, job.task.kind.folder? = some folder := by
    cases kind : job.task.kind <;> rw [kind] at managed <;> first | exact ⟨_, rfl⟩ | cases managed
  exact Place.exists_push given derived

/-- The directories that the generator owns end in the folder of a kind. -/
theorem Planned.exists_folder {request : Request} {plan : Plan} (planned : Planned request plan)
    {directory : FilePath} (member : directory ∈ plan.managedDirectories) :
    ∃ kind folder, Kind.folder? kind = some folder ∧
      folder.toList <:+ directory.text.toList := by
  obtain ⟨job, among, managed, rfl⟩ := exists_job_of_managed member
  obtain ⟨above, name, same, folder, given, known⟩ := planned.exists_push among managed
  refine ⟨_, folder, given, ?_⟩
  rw [same]
  refine List.IsSuffix.trans ?_ (FilePath.suffix_push above name)
  obtain rfl | rfl := known
  · exact List.suffix_rfl
  · rw [String.toList_append]
    exact List.suffix_append _ _

/-- What ends in the folder of a kind ends in a name. -/
theorem exists_ends_of_folder {kind : Kind} {folder : String} (given : kind.folder? = some folder)
    {path : FilePath} (suffix : folder.toList <:+ path.text.toList) :
    ∃ front name, path.Ends front name ∧ folder.toList <:+ name.toList := by
  have legal := isLegal_of_folder? given
  obtain ⟨c, inside⟩ := List.exists_mem_of_ne_nil _ (ne_nil_of_isLegal legal)
  exact FilePath.exists_ends suffix (not_mem_of_isLegal legal (by decide)) inside
    fun dot => not_mem_of_isLegal legal (by decide) (dot ▸ inside)

/-! ## Paths of artifacts -/

/-- What the artifact of a job says of it. -/
theorem eq_of_artifact {job : Job} {artifact : Artifact} (h : job.artifact = .ok artifact) :
    artifact.kind = job.task.kind ∧ artifact.name = job.task.title ∧ artifact.path = job.path := by
  obtain ⟨code, -, h⟩ := Outcome.bind_eq_ok_iff.1 h
  obtain ⟨content, -, h⟩ := Outcome.bind_eq_ok_iff.1 h
  cases Outcome.pure_eq_ok_iff.1 h
  exact ⟨rfl, rfl, rfl⟩

theorem suffix_path_of_artifact {job : Job} {artifact : Artifact} (h : job.artifact = .ok artifact) :
    Disk.sourceSuffix <:+ artifact.path.text.toList := by
  rw [(eq_of_artifact h).2.2]
  refine List.IsSuffix.trans ?_ (FilePath.suffix_push _ _)
  rw [String.toList_append]
  exact List.suffix_append _ _

/-- The name of the module index of a directory. -/
def indexFile (plan : Plan) (directory : FilePath) : String :=
  if plan.isCrateRoot directory then "lib.rs" else "mod.rs"

theorem indexFile_eq_or (plan : Plan) (directory : FilePath) :
    plan.indexFile directory = "lib.rs" ∨ plan.indexFile directory = "mod.rs" := by
  unfold indexFile
  split
  · exact .inl rfl
  · exact .inr rfl

theorem path_of_index {plan : Plan} {indexed : IndexedDirectory} {artifact : Artifact}
    (h : plan.index indexed = .ok artifact) :
    artifact.path = indexed.directory.push (plan.indexFile indexed.directory) := by
  rw [index] at h
  rw [indexFile]
  cases root : plan.isCrateRoot indexed.directory <;> rw [root] at h <;>
    obtain ⟨code, -, h⟩ := Outcome.bind_eq_ok_iff.1 h <;>
    obtain ⟨content, -, h⟩ := Outcome.bind_eq_ok_iff.1 h <;>
    cases Outcome.pure_eq_ok_iff.1 h <;> rfl

theorem suffix_path_of_index {plan : Plan} {indexed : IndexedDirectory} {artifact : Artifact}
    (h : plan.index indexed = .ok artifact) :
    Disk.sourceSuffix <:+ artifact.path.text.toList := by
  rw [path_of_index h]
  refine List.IsSuffix.trans ?_ (FilePath.suffix_push _ _)
  obtain file | file := plan.indexFile_eq_or indexed.directory <;> rw [file] <;> decide

/-- A module index is that of one of the directories that get one. -/
theorem mem_indexes_iff {plan : Plan} {indexes : List Artifact} (h : plan.indexes = .ok indexes)
    {artifact : Artifact} :
    artifact ∈ indexes ↔ plan.request.output.moduleIndex = true ∧
      ∃ indexed ∈ plan.directoriesToIndex, plan.index indexed = .ok artifact := by
  rw [Plan.indexes] at h
  split at h
  · next asked => rw [Outcome.mem_iff_of_mapM h, and_iff_right asked]
  · next unasked =>
    cases h
    simp [unasked]

/-- The artifacts of a plan are the files of its jobs, one for each, and indexes, in the order of their
paths. -/
theorem exists_files_of_artifacts {plan : Plan} {artifacts : List Artifact}
    (h : plan.artifacts = .ok artifacts) :
    ∃ files indexes, plan.jobs.mapM Job.artifact = .ok files ∧ plan.indexes = .ok indexes ∧
      artifacts.Perm (files ++ indexes) ∧
      artifacts.Pairwise fun a b => (a.path.compare b.path).isLE = true := by
  obtain ⟨files, filesOk, h⟩ := Outcome.bind_eq_ok_iff.1 h
  obtain ⟨indexes, indexesOk, h⟩ := Outcome.bind_eq_ok_iff.1 h
  cases Outcome.pure_eq_ok_iff.1 h
  refine ⟨files, indexes, filesOk, indexesOk, List.mergeSort_perm _ _,
    List.pairwise_mergeSort (fun _ _ _ => Std.TransCmp.isLE_trans) (fun a b => ?_) _⟩
  rw [show b.path.compare a.path = (a.path.compare b.path).swap from Std.OrientedCmp.eq_swap]
  cases a.path.compare b.path <;> rfl

/-- An artifact is the file of a job or a module index. -/
theorem mem_artifacts_iff {plan : Plan} {artifacts : List Artifact}
    (h : plan.artifacts = .ok artifacts) {artifact : Artifact} :
    artifact ∈ artifacts ↔ (∃ job ∈ plan.jobs, job.artifact = .ok artifact) ∨
      (plan.request.output.moduleIndex = true ∧
        ∃ indexed ∈ plan.directoriesToIndex, plan.index indexed = .ok artifact) := by
  obtain ⟨files, indexes, filesOk, indexesOk, perm, -⟩ := exists_files_of_artifacts h
  rw [perm.mem_iff, List.mem_append, Outcome.mem_iff_of_mapM filesOk, mem_indexes_iff indexesOk]

/-- Every artifact is a source file. -/
theorem suffix_path {plan : Plan} {artifacts : List Artifact} (h : plan.artifacts = .ok artifacts)
    {artifact : Artifact} (member : artifact ∈ artifacts) :
    Disk.sourceSuffix <:+ artifact.path.text.toList := by
  obtain ⟨job, -, found⟩ | ⟨-, indexed, -, found⟩ := (mem_artifacts_iff h).1 member
  · exact suffix_path_of_artifact found
  · exact suffix_path_of_index found

end Plan

end Slotwise
