import Mathlib.Data.List.Pairwise
import Slotwise.Proofs.Order
import Slotwise.Proofs.Writing
/-!
# One file, one artifact

A plan has one artifact for each of its jobs, and module indexes beside them. No two jobs write one
file, and neither do two indexes; but nothing keeps a job from writing the file of an index. The only
name that both can have is `lib`: the module of a record or variant set of this name, and the index of
the root of a crate.

Main statements: the artifacts have different paths just if no module called `lib` stands where the
root of a crate is indexed, and then none is lost when they are written (`one_file_each`); and a plan
that loses one (`not_one_file_each`).
-/

namespace Slotwise

open Disk DiskStep

namespace FilePath

/-- A relative path without steps upwards or dots at its start is made of its names. -/
theorem components_eq_names {path : FilePath} (relative : path.isAbsolute = false)
    (down : .up ∉ path.components) (plain : .here ∉ path.components) :
    path.components = path.names.map .entry := by
  have noOpening : opening path.text.toList = [] := by
    rw [components_eq, componentsOf, List.mem_append, not_or] at plain
    rw [isAbsolute, decide_eq_false_iff_not] at relative
    unfold opening at plain ⊢
    rw [if_neg relative] at plain ⊢
    split
    · next dot =>
      rw [if_pos dot] at plain
      exact absurd (List.mem_singleton_self _) plain.1
    · rfl
  rw [← pieces_of_downward down, components_eq, componentsOf, noOpening, List.nil_append]

end FilePath

namespace Plan

variable {request : Request} {plan : Plan} {artifacts : List Artifact}

/-! ## Jobs and indexes apart -/

theorem pairwise_of_checkPathsAfter {seen entries : List (List FilePath.Component × Job)}
    (h : checkPathsAfter seen entries = .ok ()) :
    entries.Pairwise (fun a b => a.1 ≠ b.1) ∧
      ∀ entry ∈ entries, ∀ other ∈ seen, other.1 ≠ entry.1 := by
  induction entries generalizing seen with
  | nil => exact ⟨.nil, fun _ member => absurd member List.not_mem_nil⟩
  | cons entry rest ih =>
    rw [checkPathsAfter] at h
    split at h
    · cases h
    · next unseen =>
      obtain ⟨pairwise, apart⟩ := ih h
      refine ⟨List.pairwise_cons.2 ⟨fun other member => apart other member entry List.mem_cons_self,
        pairwise⟩, List.forall_mem_cons.2 ⟨fun other member same => ?_,
        fun other member earlier among => apart other member earlier (List.mem_cons_of_mem _ among)⟩⟩
      exact absurd same (by simpa using List.find?_eq_none.1 unseen other member)

/-- No two jobs of a plan write one file. -/
theorem Planned.pairwise_paths (planned : Planned request plan) :
    plan.jobs.Pairwise fun a b => a.path.components ≠ b.path.components :=
  (List.pairwise_map.1 (pairwise_of_checkPathsAfter planned.paths).1).imp id

/-- The directories of a plan that can be indexed are different. -/
theorem pairwise_indexedDirectories (plan : Plan) :
    plan.indexedDirectories.Pairwise fun a b =>
      a.directory.components ≠ b.directory.components := by
  refine List.pairwise_map.2 ((Ordered.pairwise_sortedSet _).imp fun less same => ?_)
  rw [FilePath.compare_eq_iff.2 same] at less
  cases less

theorem isCrateRoot_congr (plan : Plan) {a b : FilePath} (same : a.components = b.components) :
    plan.isCrateRoot a = plan.isCrateRoot b := by
  simp only [isCrateRoot, FilePath.same, same]

/-- The directory is the root of a crate and gets an index. -/
def RootIndexed (plan : Plan) (directory : FilePath) : Prop :=
  plan.request.output.moduleIndex = true ∧ plan.isCrateRoot directory = true ∧
    (plan.request.output.rootIndex = true ∨
      ∃ owned ∈ plan.managedDirectories, owned.components = directory.components)

/-- A directory that jobs lead through gets an index under one of its spellings, if it gets one at
all. -/
theorem exists_directoryToIndex {directory : FilePath} {module : String}
    (leads : plan.LeadsTo directory module)
    (asked : plan.request.output.rootIndex = true ∨
      ∃ owned ∈ plan.managedDirectories, owned.components = directory.components) :
    ∃ indexed ∈ plan.directoriesToIndex, indexed.directory.components = directory.components := by
  obtain ⟨indexed, inside, same⟩ := exists_indexedDirectory leads
  refine ⟨indexed, List.mem_filter.2 ⟨inside, ?_⟩, same⟩
  rw [Bool.or_eq_true, List.any_eq_true]
  obtain all | ⟨owned, managed, spelled⟩ := asked
  · exact .inl all
  · exact .inr ⟨owned, managed, beq_iff_eq.2 (spelled.trans same.symm)⟩

/-- A job writes the file of an index just if its module is called `lib` and stands in the root of a
crate. -/
theorem path_eq_index_iff (planned : Planned request plan) (made : plan.artifacts = .ok artifacts)
    {job : Job} (member : job ∈ plan.jobs) (directory : FilePath) :
    job.path.components = (directory.push (plan.indexFile directory)).components ↔
      job.task.fileModule = "lib" ∧ directory.components = job.place.directory.components ∧
        plan.isCrateRoot job.place.directory = true := by
  rw [planned.components_path made member,
    FilePath.components_push _ (plan.isPlain_indexFile directory)]
  constructor
  · intro same
    obtain ⟨directories, files⟩ := List.append_inj' same rfl
    have files := FilePath.Component.entry.inj (List.singleton_inj.1 files)
    rw [indexFile] at files
    split at files
    · next root =>
      rw [← lib_append, String.append_left_inj] at files
      exact ⟨files, directories.symm, (plan.isCrateRoot_congr directories).trans root⟩
    · rw [← mod_append, String.append_left_inj] at files
      exact absurd files (Task.fileModule_ne_mod (planned.reads member))
  · rintro ⟨module, same, root⟩
    rw [indexFile, plan.isCrateRoot_congr same, root, if_pos rfl, module, same, lib_append]

/-! ## The artifacts of a plan -/

/-- Indexes at one path are those of one directory. -/
theorem directory_of_path_index {a b : IndexedDirectory}
    (same : (a.directory.push (plan.indexFile a.directory)).components =
      (b.directory.push (plan.indexFile b.directory)).components) :
    a.directory.components = b.directory.components := by
  rw [FilePath.components_push _ (plan.isPlain_indexFile _),
    FilePath.components_push _ (plan.isPlain_indexFile _)] at same
  exact (List.append_inj' same (by simp only [List.length_singleton])).1

theorem kind_ne_index (task : Task) : task.kind ≠ .index := by
  cases task <;> exact fun same => by cases same

theorem Planned.pairwise_files (planned : Planned request plan) {files : List Artifact}
    (made : plan.jobs.mapM Job.artifact = .ok files) :
    files.Pairwise fun a b => a.path.components ≠ b.path.components := by
  have paths : plan.jobs.map (·.path.components) = files.map (·.path.components) :=
    Outcome.map_eq_of_mapM (fun job file found => by rw [(eq_of_artifact found).2.2]) made
  refine List.pairwise_map.1 ?_
  rw [← paths, List.pairwise_map]
  exact planned.pairwise_paths

theorem pairwise_indexes {indexes : List Artifact} (made : plan.indexes = .ok indexes) :
    indexes.Pairwise fun a b => a.path.components ≠ b.path.components := by
  rw [Plan.indexes] at made
  split at made
  · have paths : plan.directoriesToIndex.map (fun indexed =>
        (indexed.directory.push (plan.indexFile indexed.directory)).components) =
          indexes.map (·.path.components) :=
      Outcome.map_eq_of_mapM (fun indexed index found => by rw [path_of_index found]) made
    refine List.pairwise_map.1 ?_
    rw [← paths, List.pairwise_map]
    exact ((pairwise_indexedDirectories plan).sublist List.filter_sublist).imp
      fun differ same => differ (directory_of_path_index same)
  · cases made
    exact .nil

theorem kind_of_index {indexed : IndexedDirectory} {artifact : Artifact}
    (h : plan.index indexed = .ok artifact) : artifact.kind = .index := by
  rw [index] at h
  obtain ⟨code, -, h⟩ := Outcome.bind_eq_ok_iff.1 h
  obtain ⟨content, -, h⟩ := Outcome.bind_eq_ok_iff.1 h
  cases Outcome.pure_eq_ok_iff.1 h
  rfl

/-- A job's file and an index are at one path just if the module of some job is called `lib` and stands
where the root of a crate is indexed. -/
theorem apart_iff (planned : Planned request plan) (made : plan.artifacts = .ok artifacts)
    {files indexes : List Artifact} (filesOk : plan.jobs.mapM Job.artifact = .ok files)
    (indexesOk : plan.indexes = .ok indexes) :
    (∀ file ∈ files, ∀ index ∈ indexes, file.path.components ≠ index.path.components) ↔
      ∀ job ∈ plan.jobs, job.task.fileModule = "lib" → ¬plan.RootIndexed job.place.directory := by
  constructor
  · rintro apart job member lib ⟨asked, root, owned⟩
    obtain ⟨indexed, among, same⟩ := exists_directoryToIndex (leadsTo_fileModule member) owned
    obtain ⟨file, inside, found⟩ := Outcome.exists_of_mapM filesOk member
    obtain ⟨index, found'⟩ := succeeds_indexes_iff.1 ⟨indexes, indexesOk⟩ asked indexed among
    refine apart file inside index ((mem_indexes_iff indexesOk).2 ⟨asked, indexed, among, found'⟩) ?_
    rw [(eq_of_artifact found).2.2, path_of_index found']
    exact (path_eq_index_iff planned made member _).2 ⟨lib, same, root⟩
  · intro free file inside index inside' clash
    obtain ⟨job, member, found⟩ := Outcome.mem_of_mapM filesOk inside
    obtain ⟨asked, indexed, among, found'⟩ := (mem_indexes_iff indexesOk).1 inside'
    rw [(eq_of_artifact found).2.2, path_of_index found'] at clash
    obtain ⟨lib, same, root⟩ := (path_eq_index_iff planned made member _).1 clash
    have owned := (List.mem_filter.1 among).2
    rw [Bool.or_eq_true, List.any_eq_true] at owned
    refine free job member lib ⟨asked, root, owned.imp_right fun ⟨owned, managed, spelled⟩ => ?_⟩
    rw [FilePath.same, beq_iff_eq, same] at spelled
    exact ⟨owned, managed, spelled⟩

/-- An artifact's path is made of its names if the directories of the jobs are. -/
theorem components_of_artifact (planned : Planned request plan)
    (made : plan.artifacts = .ok artifacts) (downward : plan.Downward)
    (plain : ∀ job ∈ plan.jobs, .here ∉ job.place.directory.components) {artifact : Artifact}
    (member : artifact ∈ artifacts) :
    artifact.path.components = artifact.path.names.map .entry := by
  have inside := local_of_artifact planned made downward member
  refine FilePath.components_eq_names inside.relative inside.downward ?_
  obtain ⟨job, inPlan, directory, rest, name, longer, plainName, path⟩ :=
    exists_push_of_artifact planned made member
  have relative := (downward job inPlan).1
  have noDots := plain job inPlan
  rw [longer] at relative noDots
  obtain ⟨-, within⟩ := FilePath.components_subset_foldl_push relative
  rw [path, FilePath.components_push _ plainName, List.mem_append, not_or]
  exact ⟨fun dot => noDots (within dot), by simp⟩

instance : Std.Symm fun a b : Artifact => a.path.components ≠ b.path.components where
  symm _ _ := Ne.symm

/-- Artifacts at different paths are all there after they were written. -/
theorem read_of_written (planned : Planned request plan) (made : plan.artifacts = .ok artifacts)
    (downward : plan.Downward)
    (plain : ∀ job ∈ plan.jobs, .here ∉ job.place.directory.components)
    (apart : artifacts.Pairwise fun a b => a.path.components ≠ b.path.components)
    {root : FilePath} {base : List String} {tree last : FileTree} (closed : tree.Closed)
    (survives : (tree.without (placesBelow base plan.managedDirectories)).LeadsTo
      root.components base)
    (written : writeBelow root plan artifacts tree = .ok () last) {artifact : Artifact}
    (member : artifact ∈ artifacts) :
    last.read (below root artifact.path) = .ok artifact.content := by
  obtain ⟨before, latest, after, split_, same, -, read⟩ :=
    exists_read_of_written planned made downward closed survives written member
  have among : latest ∈ artifacts := by
    rw [split_]
    exact List.mem_append_right _ List.mem_cons_self
  have spelled : latest.path.components = artifact.path.components := by
    rw [components_of_artifact planned made downward plain among, same,
      components_of_artifact planned made downward plain member]
  -- paths that differ for all other pairs are the same only for one artifact
  obtain rfl | differ := eq_or_ne latest artifact
  · exact read
  · exact absurd spelled (apart.forall among member differ)

/-- The artifacts of a plan are one for each of its jobs, and module indexes, sorted by path. Their
paths differ just if no module called `lib` stands where the root of a crate is indexed, and then all of
them are there after they were written. -/
theorem one_file_each (h : ofRequest request = .ok plan) (made : plan.artifacts = .ok artifacts) :
    (∃ files indexes, artifacts.Perm (files ++ indexes) ∧
      List.Forall₂ (fun job file => job.artifact = .ok file ∧ file.path = job.path ∧
        file.kind ≠ .index) plan.jobs files ∧
      ∀ index ∈ indexes, index.kind = .index) ∧
    artifacts.Pairwise (fun a b => (a.path.compare b.path).isLE = true) ∧
    (artifacts.Pairwise (fun a b => a.path.components ≠ b.path.components) ↔
      ∀ job ∈ plan.jobs, job.task.fileModule = "lib" → ¬plan.RootIndexed job.place.directory) ∧
    (plan.Downward → (∀ job ∈ plan.jobs, .here ∉ job.place.directory.components) →
      artifacts.Pairwise (fun a b => a.path.components ≠ b.path.components) →
      ∀ (root : FilePath) (base : List String) (tree last : FileTree), tree.Closed →
        (tree.without (placesBelow base plan.managedDirectories)).LeadsTo root.components base →
        writeBelow root plan artifacts tree = .ok () last →
        ∀ artifact ∈ artifacts, last.read (below root artifact.path) = .ok artifact.content) := by
  have planned := planned_of_ofRequest h
  obtain ⟨files, indexes, filesOk, indexesOk, perm, sorted⟩ := exists_files_of_artifacts made
  refine ⟨⟨files, indexes, perm, ?_, fun index member => ?_⟩, sorted, ?_,
    fun downward plain apart root base tree last closed survives written artifact member =>
      read_of_written planned made downward plain apart closed survives written member⟩
  · refine (Outcome.mapM_eq_ok_iff.1 filesOk).imp fun job file found => ?_
    obtain ⟨kind, -, path⟩ := eq_of_artifact found
    exact ⟨found, path, kind ▸ kind_ne_index job.task⟩
  · obtain ⟨-, indexed, -, found⟩ := (mem_indexes_iff indexesOk).1 member
    exact kind_of_index found
  · rw [perm.pairwise_iff Ne.symm, List.pairwise_append,
      and_iff_right (planned.pairwise_files filesOk), and_iff_right (pairwise_indexes indexesOk)]
    exact apart_iff planned made filesOk indexesOk

/-! ## Plans with indexes -/

/-- The request for a key where the root of the crate is indexed. -/
def indexedKey : Request :=
  { keyBelow "New" "src" with output := ⟨"src", "", true, true⟩ }

/-- Its plan. -/
def indexedPlan : { plan : Plan // ofRequest indexedKey = .ok plan ∧
    (plan.makes &&
      plan.jobs.all (·.task.fileModule ≠ "lib") && plan.isCrateRoot ⟨"src"⟩ &&
        plan.request.output.moduleIndex && plan.request.output.rootIndex) = true } :=
  passing <| by
    simp only [makes_eq, ofRequest, allJobs, directoriesToIndex, indexedDirectories,
      managedDirectories, ModuleIndex.file, Ordered.sortedTexts, Ordered.sortedSet_eq_foldr]
    decide +kernel

/-- The root of the crate is indexed, and the key has a file of its own, which is there after it was
written. -/
theorem one_file_each_keys :
    (∃ plan artifacts, ofRequest indexedKey = .ok plan ∧ plan.artifacts = .ok artifacts ∧
      plan.RootIndexed ⟨"src"⟩ ∧
      artifacts.Pairwise fun a b => a.path.components ≠ b.path.components) ∧
    ∃ last, writeBelow ⟨""⟩ (keyPlan "New" "src") [keyArtifact "New" "src"] FileTree.empty =
        .ok () last ∧
      last.read (below ⟨""⟩ (keyArtifact "New" "src").path) = .ok (keyContent "New") := by
  constructor
  · obtain ⟨plan, planned, passed⟩ := indexedPlan
    simp only [Bool.and_eq_true, List.all_eq_true, decide_eq_true_eq] at passed
    obtain ⟨⟨⟨⟨makes_, free⟩, root⟩, asked⟩, all⟩ := passed
    obtain ⟨artifacts, made⟩ := exists_of_makes makes_
    obtain ⟨-, -, apart, -⟩ := one_file_each planned made
    exact ⟨plan, artifacts, planned, made, ⟨asked, root, .inl all⟩,
      apart.2 fun job member lib => absurd lib (free job member)⟩
  · have run : leaves (runAll (keySteps "New" "src")) FileTree.empty (fun _ => true) = true := by
      decide +kernel
    obtain ⟨last, written, -⟩ := exists_of_leaves run
    rw [← writeBelow_keyPlan] at written
    have known : "New" ∈ stems.val := List.mem_cons_of_mem _ List.mem_cons_self
    obtain ⟨-, -, -, held⟩ := one_file_each (ofRequest_keyBelow known "src")
      (artifacts_keyPlan known "src")
    have plain : ∀ job ∈ (keyPlan "New" "src").jobs, .here ∉ job.place.directory.components := by
      intro job member
      rw [List.mem_singleton.1 member, directory_keyJob]
      decide +kernel
    have survives : (FileTree.empty.without
        (placesBelow [] (keyPlan "New" "src").managedDirectories)).LeadsTo
          (FilePath.components ⟨""⟩) [] := by
      exact ⟨[], rfl, FileTree.get?_nil _, rfl⟩
    have read := held (downward_keyPlan "New") plain (List.pairwise_singleton _ _) ⟨""⟩ [] _ _
      FileTree.closed_empty survives written (keyArtifact "New" "src") (List.mem_singleton_self _)
    rw [content_keyArtifact] at read
    exact ⟨last, written, read⟩

/-- The request for a record called as the index of the root that it stands in. -/
def libRecord : Request :=
  { Request.empty with
    output := ⟨"src", "", true, true⟩
    records := [{ single "Lib" (TypeRef.named "f64") with location := .inPackage "" }] }

/-- Its plan. -/
def libPlan : { plan : Plan // ofRequest libRecord = .ok plan ∧
    (plan.makes && plan.request.output.moduleIndex &&
      plan.jobs.any fun job => decide (job.task.kind = .lenses) &&
        plan.directoriesToIndex.any fun indexed =>
          job.path.same (indexed.directory.push (plan.indexFile indexed.directory))) = true } :=
  passing <| by
    simp only [makes_eq, ofRequest, allJobs, directoriesToIndex, indexedDirectories,
      managedDirectories, ModuleIndex.file, Ordered.sortedTexts, Ordered.sortedSet_eq_foldr]
    decide +kernel

/-- The file of a record and a module index are at one path. -/
theorem not_one_file_each :
    ∃ plan artifacts, ofRequest libRecord = .ok plan ∧ plan.artifacts = .ok artifacts ∧
      ¬artifacts.Pairwise (fun a b => a.path.components ≠ b.path.components) ∧
      ∃ file ∈ artifacts, ∃ index ∈ artifacts, file.kind = .lenses ∧ index.kind = .index ∧
        file.path.components = index.path.components := by
  obtain ⟨plan, planned, passed⟩ := libPlan
  simp only [Bool.and_eq_true, List.any_eq_true, decide_eq_true_eq] at passed
  obtain ⟨⟨makes_, asked⟩, job, member, lenses, indexed, among, same⟩ := passed
  obtain ⟨artifacts, made⟩ := exists_of_makes makes_
  obtain ⟨files, indexes⟩ := succeeds_artifacts_iff_each.1 ⟨artifacts, made⟩
  obtain ⟨file, found⟩ := files job member
  obtain ⟨index, found'⟩ := succeeds_indexes_iff.1 indexes asked indexed among
  have inside := (mem_artifacts_iff made).2 (.inl ⟨job, member, found⟩)
  have inside' := (mem_artifacts_iff made).2 (.inr ⟨asked, indexed, among, found'⟩)
  have kind : file.kind = .lenses := (eq_of_artifact found).1.trans lenses
  have paths : file.path.components = index.path.components := by
    rw [(eq_of_artifact found).2.2, path_of_index found']
    exact beq_iff_eq.1 same
  refine ⟨plan, artifacts, planned, made, fun apart => ?_, file, inside, index, inside', kind,
    kind_of_index found', paths⟩
  refine apart.forall inside inside' (fun same => ?_) paths
  rw [same, kind_of_index found'] at kind
  cases kind

end Plan

end Slotwise
