import Slotwise.Proofs.Indexes
import Slotwise.Proofs.Spared
/-!
# Indexes of others

Where only owned directories get module indexes, a file called as an index in any other directory is
code of others. The indexes of a plan leave such files as they are. But the file of a record or variant
set is called after it, and nothing keeps one from being called `Lib`: its file `lib.rs` goes to the
package that it declares, beside code of others.

Main statements: which artifacts are called as indexes, and which files of this name stay as they were
(`spares_indexes`); and a record that takes the place of an index (`not_spares_indexes`).
-/

namespace Slotwise.Plan

open FileTree Disk DiskStep

variable {request : Request} {plan : Plan} {artifacts : List Artifact} {root : FilePath}
  {base : List String} {tree last : FileTree}

/-- The names of module indexes. -/
def indexNames : List String :=
  ["mod.rs", "lib.rs"]

/-- The directory of an artifact and its name there. -/
theorem exists_directory_of_artifact (planned : Planned request plan)
    (made : plan.artifacts = .ok artifacts) {artifact : Artifact} (member : artifact ∈ artifacts) :
    ∃ (directory : FilePath) (name : String),
      artifact.path.components = directory.components ++ [FilePath.Component.entry name] := by
  obtain ⟨-, -, directory, -, name, -, plain, path⟩ := exists_push_of_artifact planned made member
  exact ⟨directory, name, by rw [path, FilePath.components_push _ plain]⟩

/-- Where only owned directories get indexes, an artifact that is called as an index is the index of
one, or the file of a record or variant set whose module is called `lib`. -/
theorem owned_or_lib (planned : Planned request plan) (made : plan.artifacts = .ok artifacts)
    (shared : plan.request.output.rootIndex = false) {artifact : Artifact}
    (member : artifact ∈ artifacts) {directory : FilePath} {name : String}
    (called : name ∈ indexNames)
    (path : artifact.path.components = directory.components ++ [FilePath.Component.entry name]) :
    (artifact.kind = .index ∧
      ∃ owned ∈ plan.managedDirectories, owned.components = directory.components) ∨
    ∃ job ∈ plan.jobs, job.artifact = .ok artifact ∧
      job.place.directory.components = directory.components ∧ job.task.fileModule = "lib" := by
  obtain ⟨job, among, found, same, module⟩ | ⟨-, kind, indexes, -⟩ :=
    origin_of_artifact planned made member path
  · refine .inr ⟨job, among, found, same, ?_⟩
    simp only [indexNames, List.mem_cons, List.not_mem_nil, or_false] at called
    obtain rfl | rfl := called
    · rw [← mod_append, String.append_left_inj] at module
      exact absurd module (Task.fileModule_ne_mod (planned.reads among))
    · rwa [← lib_append, String.append_left_inj] at module
  · obtain all | owned := indexes.wants
    · rw [shared] at all
      cases all
    · exact .inl ⟨kind, owned⟩

/-- The directory of a job with a module called `lib` holds an artifact called as an index. -/
theorem exists_lib_artifact (planned : Planned request plan) (made : plan.artifacts = .ok artifacts)
    {job : Job} (member : job ∈ plan.jobs) (lib : job.task.fileModule = "lib") :
    ∃ artifact ∈ artifacts, artifact.path.components =
      job.place.directory.components ++ [FilePath.Component.entry "lib.rs"] := by
  obtain ⟨file, inside, -, path⟩ := exists_artifact_of_job made member
  exact ⟨file, inside, by rw [path, planned.components_path made member, lib, lib_append]⟩

/-! ## Files of others -/

theorem names_of_components {path directory : FilePath} {name : String}
    (h : path.components = directory.components ++ [FilePath.Component.entry name]) :
    path.names = directory.names ++ [name] := by
  rw [FilePath.names, h, List.filterMap_append]
  rfl

/-- A file that is called as an index, neither in a directory that the plan owns nor that of a module
called `lib`, is as it was. -/
theorem index_file_iff (planned : Planned request plan) (made : plan.artifacts = .ok artifacts)
    (shared : plan.request.output.rootIndex = false) (downward : plan.Downward)
    (closed : tree.Closed)
    (survives : (tree.without (placesBelow base plan.managedDirectories)).LeadsTo
      root.components base)
    (written : writeBelow root plan artifacts tree = .ok () last) {front : List String}
    {name : String} (called : name ∈ indexNames)
    (outside : ∀ place ∈ placesBelow base plan.managedDirectories, ¬place <+: front ++ [name])
    (noLib : ∀ job ∈ plan.jobs, job.task.fileModule = "lib" →
      front ++ [name] ≠ base ++ job.path.names) (text : String) :
    last.get? (front ++ [name]) = some (.file text) ↔
      tree.get? (front ++ [name]) = some (.file text) := by
  have source : IsSource (front ++ [name]) := by
    refine ⟨front, name, rfl, ?_⟩
    simp only [indexNames, List.mem_cons, List.not_mem_nil, or_false] at called
    obtain rfl | rfl := called <;> decide
  refine file_iff_of_apart planned made downward closed survives written outside
    (fun artifact member => ⟨fun same => ?_, fun same => ?_⟩) text
  · obtain ⟨directory, own, path⟩ := exists_directory_of_artifact planned made member
    rw [names_of_components path, ← List.append_assoc] at same
    obtain ⟨above, names⟩ := List.append_inj' same rfl
    rw [← List.singleton_inj.1 names] at path
    obtain ⟨-, owned, managed, spelled⟩ | ⟨job, among, found, -, lib⟩ :=
      owned_or_lib planned made shared member called path
    · refine outside _ (List.mem_map_of_mem managed) ?_
      rw [above, FilePath.names, FilePath.names, spelled]
      exact List.prefix_append _ _
    · refine noLib job among lib ?_
      rw [← (eq_of_artifact found).2.2, names_of_components path, above, List.append_assoc]
  · -- artifacts are written first to files of another kind
    obtain ⟨front', own, ends⟩ := (local_of_artifact planned made downward member).named
    rw [(ends_temporary ends).names, ← List.append_assoc] at same
    rw [same] at source
    exact temporary_not_source _ _ source

/-- Where only owned directories get indexes, what else is called as an index is the file of a record
or variant set whose module is called `lib`. So all artifacts of this name are in or below owned
directories just if those records and variant sets are. When a plan is written over a tree, files of
this name outside of the owned directories stay as they were, apart from those that these records and
variant sets take the place of. -/
theorem spares_indexes (h : ofRequest request = .ok plan) (made : plan.artifacts = .ok artifacts)
    (shared : request.output.rootIndex = false) :
    (∀ artifact ∈ artifacts, ∀ (directory : FilePath) (name : String), name ∈ indexNames →
      artifact.path.components = directory.components ++ [.entry name] →
        (artifact.kind = .index ∧
          ∃ owned ∈ plan.managedDirectories, owned.components = directory.components) ∨
        ∃ job ∈ plan.jobs, job.artifact = .ok artifact ∧ job.task.fileModule = "lib" ∧
          ((∃ index record, job.task = .lens index record) ∨
            ∃ index set, job.task = .prism index set)) ∧
    ((∀ artifact ∈ artifacts, ∀ (directory : FilePath) (name : String), name ∈ indexNames →
      artifact.path.components = directory.components ++ [.entry name] → ¬plan.Spares directory) ↔
        ∀ job ∈ plan.jobs, job.task.fileModule = "lib" → ¬plan.Spares job.place.directory) ∧
    (plan.Downward → ∀ (root : FilePath) (base : List String) (tree last : FileTree), tree.Closed →
      (tree.without (placesBelow base plan.managedDirectories)).LeadsTo root.components base →
      writeBelow root plan artifacts tree = .ok () last →
        (∀ front name, name ∈ indexNames →
          (∀ place ∈ placesBelow base plan.managedDirectories, ¬place <+: front ++ [name]) →
          (∀ job ∈ plan.jobs, job.task.fileModule = "lib" →
            front ++ [name] ≠ base ++ job.path.names) →
          ∀ text, last.get? (front ++ [name]) = some (.file text) ↔
            tree.get? (front ++ [name]) = some (.file text)) ∧
        ∀ job ∈ plan.jobs, job.task.fileModule = "lib" → ∃ artifact ∈ artifacts,
          artifact.path.names = job.path.names ∧
            last.get? (base ++ job.path.names) = some (.file artifact.content)) := by
  have planned := planned_of_ofRequest h
  rw [← planned.output_eq] at shared
  refine ⟨fun artifact member directory name called path => ?_, ⟨fun all job member lib => ?_,
    fun libs artifact member directory name called path spares => ?_⟩,
    fun downward root base tree last closed survives written =>
      ⟨fun front name called outside noLib => index_file_iff planned made shared downward closed
        survives written called outside noLib, fun job member lib => ?_⟩⟩
  · obtain index | ⟨job, among, found, -, lib⟩ :=
      owned_or_lib planned made shared member called path
    · exact .inl index
    · exact .inr ⟨job, among, found, lib, Task.declared_of_fileModule (.inr rfl) lib⟩
  · obtain ⟨artifact, inside, path⟩ := exists_lib_artifact planned made member lib
    exact all artifact inside _ _ (List.mem_cons_of_mem _ List.mem_cons_self) path
  · obtain ⟨-, owned, managed, same⟩ | ⟨job, among, -, same, lib⟩ :=
      owned_or_lib planned made shared member called path
    · exact spares owned managed (by rw [same])
    · refine libs job among lib ?_
      rwa [Spares, ← same] at spares
  · obtain ⟨file, inside, -, path⟩ := exists_artifact_of_job made member
    obtain ⟨before, latest, after, split_, same, -, content⟩ := exists_lastContent base inside
    obtain ⟨-, -, fileLast⟩ := file_iff_of_written planned made downward closed survives written
    rw [path] at same content
    refine ⟨latest, ?_, same, (fileLast _ _).2 (.inl content)⟩
    rw [split_]
    exact List.mem_append_right _ List.mem_cons_self

/-! ## Plans for others -/

/-- The request for a key whose directory gets an index. -/
def ownedKey : Request :=
  { keyBelow "New" "src" with output := .default }

/-- A tree with an index of others. -/
def hostTree : FileTree :=
  ⟨[(["src"], .directory), (["src", "lib.rs"], .file "// host")]⟩

/-- Its plan. -/
def ownedPlan : { plan : Plan // ofRequest ownedKey = .ok plan ∧
    (plan.makes &&
      plan.jobs.all (·.task.fileModule ≠ "lib") &&
      plan.directoriesToIndex.any (fun indexed => decide (indexed.directory = ⟨"src/keys"⟩)) &&
      !plan.isCrateRoot ⟨"src/keys"⟩ && plan.request.output.moduleIndex) = true } :=
  passing <| by
    simp only [makes_eq, ofRequest, allJobs, directoriesToIndex, indexedDirectories,
      managedDirectories, ModuleIndex.file, Ordered.sortedTexts, Ordered.sortedSet_eq_foldr]
    decide +kernel

/-- The directory of keys has an index, and all artifacts of this name are in such directories; and
keys are written beside the index of others. -/
theorem spares_indexes_keys :
    (∃ plan artifacts, ofRequest ownedKey = .ok plan ∧ plan.artifacts = .ok artifacts ∧
      (∃ artifact ∈ artifacts, artifact.path.components =
        FilePath.components ⟨"src/keys"⟩ ++ [.entry "mod.rs"]) ∧
      ∀ artifact ∈ artifacts, ∀ (directory : FilePath) (name : String), name ∈ indexNames →
        artifact.path.components = directory.components ++ [.entry name] →
          ¬plan.Spares directory) ∧
    ∃ last, writeBelow ⟨""⟩ (keyPlan "New" "src") [keyArtifact "New" "src"] hostTree = .ok () last ∧
      last.get? ["src", "lib.rs"] = some (.file "// host") := by
  constructor
  · obtain ⟨plan, planned, passed⟩ := ownedPlan
    simp only [Bool.and_eq_true, Bool.not_eq_true', List.all_eq_true, List.any_eq_true,
      decide_eq_true_eq] at passed
    obtain ⟨⟨⟨⟨makes_, free⟩, indexed, among, directory⟩, inner⟩, asked⟩ := passed
    obtain ⟨artifacts, made⟩ := exists_of_makes makes_
    obtain ⟨-, owned, -⟩ := spares_indexes planned made rfl
    refine ⟨plan, artifacts, planned, made, ?_,
      owned.2 fun job member lib => absurd lib (free job member)⟩
    have indexes := indexes_of_directoryToIndex among
    rw [directory] at indexes
    obtain ⟨artifact, only, index⟩ := exists_indexesIn_eq made asked indexes
    have inside : artifact ∈ indexesIn artifacts ⟨"src/keys"⟩ :=
      only ▸ List.mem_singleton_self artifact
    refine ⟨artifact, (mem_indexesIn_iff.1 inside).1, index.inner ?_⟩
    rw [← isCrateRoot_iff, inner]
    exact Bool.false_ne_true
  · have run : leaves (runAll (keySteps "New" "src")) hostTree (fun _ => true) = true := by
      decide +kernel
    obtain ⟨last, written, -⟩ := exists_of_leaves run
    rw [← writeBelow_keyPlan] at written
    have known : "New" ∈ stems.val := List.mem_cons_of_mem _ List.mem_cons_self
    obtain ⟨-, -, kept⟩ := spares_indexes (ofRequest_keyBelow known "src")
      (artifacts_keyPlan known "src") rfl
    have places : placesBelow [] (keyPlan "New" "src").managedDirectories = [["src", "keys"]] := by
      rw [managedDirectories_keyPlan]
      decide +kernel
    have survives : (hostTree.without
        (placesBelow [] (keyPlan "New" "src").managedDirectories)).LeadsTo
          (FilePath.components ⟨""⟩) [] :=
      ⟨[], rfl, FileTree.get?_nil _, rfl⟩
    have noLib : ∀ job ∈ (keyPlan "New" "src").jobs, job.task.fileModule ≠ "lib" := by
      intro job member
      rw [List.mem_singleton.1 member]
      decide +kernel
    obtain ⟨same, -⟩ := kept (downward_keyPlan "New") ⟨""⟩ [] _ _
      (closed_of_forall_entries (by decide +kernel)) survives written
    rw [places] at same
    exact ⟨last, written, (same ["src"] "lib.rs" (by decide) (by decide)
      (fun job member lib => absurd lib (noLib job member)) _).2 (by decide +kernel)⟩

/-- The request for a record called as the index of a crate, in the root of the crate. -/
def hostRecord : Request :=
  { Request.empty with
    records := [{ single "Lib" (TypeRef.named "f64") with location := .inPackage "" }] }

/-- Its plan. -/
def hostPlan : { plan : Plan // ofRequest hostRecord = .ok plan ∧
    (plan.makes &&
      plan.jobs.any (fun job => decide (job.place.directory = ⟨"src"⟩) &&
        decide (job.task.fileModule = "lib")) &&
      plan.managedDirectories.isEmpty && !plan.request.output.rootIndex) = true } :=
  passing <| by
    simp only [makes_eq, ofRequest, allJobs, directoriesToIndex, indexedDirectories,
      managedDirectories, ModuleIndex.file, Ordered.sortedTexts, Ordered.sortedSet_eq_foldr]
    decide +kernel

/-- The file of the record is called as an index and goes to a directory that is not owned. -/
theorem not_spares_indexes :
    ∃ plan artifacts, ofRequest hostRecord = .ok plan ∧ plan.artifacts = .ok artifacts ∧
      plan.request.output.rootIndex = false ∧ plan.Spares ⟨"src"⟩ ∧
      ∃ artifact ∈ artifacts, artifact.path.components =
        FilePath.components ⟨"src"⟩ ++ [.entry "lib.rs"] := by
  obtain ⟨plan, planned, passed⟩ := hostPlan
  simp only [Bool.and_eq_true, Bool.not_eq_true', List.any_eq_true, List.isEmpty_iff,
    decide_eq_true_eq] at passed
  obtain ⟨⟨⟨makes_, job, member, directory, lib⟩, unowned⟩, shared⟩ := passed
  obtain ⟨artifacts, made⟩ := exists_of_makes makes_
  obtain ⟨artifact, inside, path⟩ :=
    exists_lib_artifact (planned_of_ofRequest planned) made member lib
  rw [directory] at path
  refine ⟨plan, artifacts, planned, made, shared, fun owned managed => ?_, artifact, inside, path⟩
  rw [unowned] at managed
  cases managed

end Slotwise.Plan
