import Slotwise.Proofs.Distinct
/-!
# Module indexes and the tree of modules

The indexes of a plan describe the tree that its files form. A directory has one index if the paths of
jobs lead through it and it is to have one at all, and the index declares the modules that these paths
lead to and nothing else. So where all directories are indexed, every file of a job can be found from
the top of its tree.

Main statement: the indexes of a plan, and the declarations that lead to the files of its jobs
(`indexes_describe_tree`).
-/

namespace Slotwise

/-! ## The code of an index -/

namespace Code.File

/-- The modules that a file declares in public, in order. -/
def declares (file : File) : List String :=
  file.items.filterMap fun
    | .visible [.word "pub"] (.moduleItem name none) => some name
    | _ => none

/-- The modules that a file exports everything of, in order. -/
def exports (file : File) : List String :=
  file.items.filterMap fun
    | .visible [.word "pub"] (.useItem false (.useStep name (some .useAll))) => some name
    | _ => none

/-- The file declares the modules with a property, each once and in ascending order, exports
everything of each, once and in the same order, and holds nothing else. -/
structure Lists (file : File) (among : String → Prop) : Prop where
  /-- The modules are declared. -/
  declared : ∀ module, module ∈ file.declares ↔ among module
  /-- They are declared in ascending order. -/
  ascending : file.declares.Pairwise (· < ·)
  /-- They are exported in the same order. -/
  exported : file.exports = file.declares
  /-- There are no other items. -/
  complete : file.items.length = file.declares.length + file.exports.length

end Code.File

open Code Code.Node in
/-- The code of an index for its modules. -/
theorem ModuleIndex.items_of_file {doc : String} {modules : List String} {file : File}
    (h : ModuleIndex.file doc modules = .ok file) :
    file.items = (Ordered.sortedTexts modules).map (fun name => isPublic (moduleItem name none)) ++
      (Ordered.sortedTexts modules).map
        fun name => isPublic (useItem false (useStep name (some useAll))) := by
  obtain ⟨names, legal, h⟩ := Outcome.bind_eq_ok_iff.1 h
  cases Outcome.pure_eq_ok_iff.1 h
  obtain ⟨rfl, -⟩ := mapM_legal_eq_ok_iff.1 legal
  rfl

/-- An index declares and exports exactly its modules. -/
theorem ModuleIndex.lists_of_file {doc : String} {modules : List String} {file : Code.File}
    (h : ModuleIndex.file doc modules = .ok file) : file.Lists (· ∈ modules) := by
  have declares : file.declares = Ordered.sortedTexts modules := by
    simp [Code.File.declares, items_of_file h, List.filterMap_map, Code.Node.isPublic]
  have exports : file.exports = Ordered.sortedTexts modules := by
    simp [Code.File.exports, items_of_file h, List.filterMap_map, Code.Node.isPublic]
  refine ⟨fun module => ?_, ?_, exports.trans declares.symm, ?_⟩
  · rw [declares]
    exact Ordered.mem_sortedSet_iff fun _ _ _ _ => Std.LawfulEqOrd.eq_of_compare
  · rw [declares]
    have sorted : (Ordered.sortedTexts modules).Pairwise (compare · · = .lt) :=
      Ordered.pairwise_sortedSet modules
    exact sorted.imp fun less => compareOfLessAndEq_eq_lt.1 less
  · rw [declares, exports, items_of_file h, List.length_append, List.length_map, List.length_map]

namespace Plan

variable {request : Request} {plan : Plan} {artifacts : List Artifact}

/-! ## Directories with an index -/

/-- The directory is the root of a crate: the source root of a job without domain, however it is
written. -/
def RootOfCrate (plan : Plan) (directory : FilePath) : Prop :=
  ∃ job ∈ plan.jobs, ModulePath.segments job.place.domain = [] ∧
    FilePath.components ⟨job.place.sourceRoot⟩ = directory.components

theorem isCrateRoot_iff {directory : FilePath} :
    plan.isCrateRoot directory = true ↔ plan.RootOfCrate directory := by
  simp only [isCrateRoot, RootOfCrate, FilePath.same, List.any_eq_true, Bool.and_eq_true,
    List.isEmpty_iff, beq_iff_eq]

/-- A directory is to have an index if the generator owns it or all directories are to have one. -/
def Wants (plan : Plan) (directory : FilePath) : Prop :=
  plan.request.output.rootIndex = true ∨
    ∃ owned ∈ plan.managedDirectories, owned.components = directory.components

/-- Paths of jobs lead through the directory, and it is to have an index. -/
structure Indexes (plan : Plan) (directory : FilePath) : Prop where
  /-- The path of a job leads to a module in the directory. -/
  leads : ∃ module, plan.LeadsTo directory module
  /-- The directory is to have an index. -/
  wants : plan.Wants directory

/-- The spelling of a directory does not count. -/
theorem Indexes.congr {a b : FilePath} (same : a.components = b.components)
    (indexes : plan.Indexes a) : plan.Indexes b := by
  obtain ⟨⟨module, leads⟩, wants⟩ := indexes
  refine ⟨⟨module, (leadsTo_congr same module).1 leads⟩, ?_⟩
  rwa [Wants, same] at wants

theorem indexes_of_directoryToIndex {indexed : IndexedDirectory}
    (among : indexed ∈ plan.directoriesToIndex) : plan.Indexes indexed.directory := by
  obtain ⟨inside, asked⟩ := List.mem_filter.1 among
  obtain ⟨job, inPlan, k, module, leads, same⟩ := exists_along_of_indexedDirectory inside
  rw [Bool.or_eq_true, List.any_eq_true] at asked
  exact ⟨⟨module, job, inPlan, k, leads, by rw [same]⟩,
    asked.imp_right fun ⟨owned, managed, spelled⟩ => ⟨owned, managed, beq_iff_eq.1 spelled⟩⟩

/-! ## Indexes -/

/-- The artifact is an index of the directory: it stands in the directory as `lib.rs` or `mod.rs`, and
its text is that of a file which lists the modules that paths of jobs lead to. -/
structure IsIndex (plan : Plan) (directory : FilePath) (artifact : Artifact) : Prop where
  /-- The artifact is an index. -/
  kind : artifact.kind = .index
  /-- The index of the root of a crate. -/
  root : plan.RootOfCrate directory →
    artifact.path.components = directory.components ++ [.entry "lib.rs"]
  /-- The index of another directory. -/
  inner : ¬plan.RootOfCrate directory →
    artifact.path.components = directory.components ++ [.entry "mod.rs"]
  /-- What the index holds. -/
  content : ∃ file : Code.File, file.render = .ok artifact.content ∧
    file.Lists (plan.LeadsTo directory)

/-- An index is one of each directory with the components of its own. -/
theorem IsIndex.congr {a b : FilePath} (same : a.components = b.components) {artifact : Artifact}
    (index : plan.IsIndex a artifact) : plan.IsIndex b artifact := by
  obtain ⟨kind, root, inner, file, made, lists⟩ := index
  have rootOfCrate : plan.RootOfCrate a ↔ plan.RootOfCrate b := by
    rw [RootOfCrate, RootOfCrate, same]
  have leads : plan.LeadsTo a = plan.LeadsTo b :=
    funext fun module => propext (leadsTo_congr same module)
  rw [rootOfCrate, same] at root inner
  exact ⟨kind, root, inner, file, made, leads ▸ lists⟩

theorem exists_file_of_index {indexed : IndexedDirectory} {artifact : Artifact}
    (h : plan.index indexed = .ok artifact) :
    ∃ doc file, ModuleIndex.file doc indexed.modules = .ok file ∧
      file.render = .ok artifact.content := by
  rw [index] at h
  obtain ⟨file, code, h⟩ := Outcome.bind_eq_ok_iff.1 h
  obtain ⟨content, rendered, h⟩ := Outcome.bind_eq_ok_iff.1 h
  cases Outcome.pure_eq_ok_iff.1 h
  exact ⟨_, file, code, rendered⟩

/-- What the generator makes for a directory is an index of it. -/
theorem isIndex_of_index {indexed : IndexedDirectory} (among : indexed ∈ plan.indexedDirectories)
    {artifact : Artifact} (h : plan.index indexed = .ok artifact) :
    plan.IsIndex indexed.directory artifact := by
  obtain ⟨doc, file, made, rendered⟩ := exists_file_of_index h
  have components := components_path_of_index h
  obtain ⟨declared, ascending, exported, complete⟩ := ModuleIndex.lists_of_file made
  refine ⟨kind_of_index h, fun root => ?_, fun inner => ?_, file, rendered,
    fun module => (declared module).trans (mem_modules_iff among), ascending, exported, complete⟩
  · rw [components, indexFile, if_pos (isCrateRoot_iff.2 root)]
  · rw [components, indexFile, if_neg (isCrateRoot_iff.not.2 inner)]

/-- An index stands in its directory. -/
theorem IsIndex.dropLast_path {directory : FilePath} {artifact : Artifact}
    (index : plan.IsIndex directory artifact) :
    artifact.path.components.dropLast = directory.components := by
  by_cases root : plan.RootOfCrate directory
  · rw [index.root root, List.dropLast_concat]
  · rw [index.inner root, List.dropLast_concat]

/-- The indexes among the artifacts that stand in a directory. -/
def indexesIn (artifacts : List Artifact) (directory : FilePath) : List Artifact :=
  (artifacts.filter (·.kind = .index)).filter (·.path.components.dropLast = directory.components)

theorem mem_indexesIn_iff {directory : FilePath} {artifact : Artifact} :
    artifact ∈ indexesIn artifacts directory ↔ artifact ∈ artifacts ∧ artifact.kind = .index ∧
      artifact.path.components.dropLast = directory.components := by
  rw [indexesIn, List.mem_filter, List.mem_filter, decide_eq_true_eq, decide_eq_true_eq, and_assoc]

/-- A member that differs from all others in a value is the only one with this value. -/
theorem filter_eq_singleton {α β : Type} [DecidableEq β] {value : α → β} {xs : List α} {x : α}
    (apart : xs.Pairwise fun a b => value a ≠ value b) (member : x ∈ xs) :
    xs.filter (value · = value x) = [x] :=
  Code.filter_eq_singleton (List.pairwise_map.2 apart) member

/-- The indexes among the artifacts are those that the generator makes. -/
theorem exists_index_of_mem (made : plan.artifacts = .ok artifacts) {artifact : Artifact}
    (member : artifact ∈ artifacts) (kind : artifact.kind = .index) :
    plan.request.output.moduleIndex = true ∧
      ∃ indexed ∈ plan.directoriesToIndex, plan.index indexed = .ok artifact := by
  obtain ⟨job, -, found⟩ | index := (mem_artifacts_iff made).1 member
  · exact absurd ((eq_of_artifact found).1.symm.trans kind) (kind_ne_index job.task)
  · exact index

/-- Each index among the artifacts is one of a directory that is to have one. -/
theorem exists_isIndex (made : plan.artifacts = .ok artifacts) {artifact : Artifact}
    (member : artifact ∈ artifacts) (kind : artifact.kind = .index) :
    ∃ directory, plan.Indexes directory ∧ plan.IsIndex directory artifact := by
  obtain ⟨-, indexed, among, found⟩ := exists_index_of_mem made member kind
  exact ⟨indexed.directory, indexes_of_directoryToIndex among,
    isIndex_of_index (List.mem_of_mem_filter among) found⟩

/-- The indexes among the artifacts stand in different directories. -/
theorem pairwise_indexArtifacts (made : plan.artifacts = .ok artifacts) :
    (artifacts.filter (·.kind = .index)).Pairwise fun a b =>
      a.path.components.dropLast ≠ b.path.components.dropLast := by
  obtain ⟨files, indexes, filesOk, indexesOk, perm, -⟩ := exists_files_of_artifacts made
  have noFile : files.filter (·.kind = .index) = [] := by
    refine List.filter_eq_nil_iff.2 fun file member => ?_
    obtain ⟨job, -, found⟩ := Outcome.mem_of_mapM filesOk member
    rw [decide_eq_true_eq, (eq_of_artifact found).1]
    exact kind_ne_index job.task
  have perm := perm.filter (·.kind = .index)
  rw [List.filter_append, noFile, List.nil_append] at perm
  rw [perm.pairwise_iff Ne.symm]
  refine List.Pairwise.sublist List.filter_sublist ?_
  -- indexes in one directory have one name there, so they are at one path
  refine List.Pairwise.imp_of_mem (fun {a b} member member' differ same => differ ?_)
    (pairwise_indexes indexesOk)
  obtain ⟨-, indexed, among, found⟩ := (mem_indexes_iff indexesOk).1 member
  obtain ⟨-, indexed', among', found'⟩ := (mem_indexes_iff indexesOk).1 member'
  have index := isIndex_of_index (List.mem_of_mem_filter among) found
  have index' := isIndex_of_index (List.mem_of_mem_filter among') found'
  have directories : indexed'.directory.components = indexed.directory.components := by
    rw [← index.dropLast_path, ← index'.dropLast_path, same]
  have index' := index'.congr directories
  by_cases root : plan.RootOfCrate indexed.directory
  · rw [index.root root, index'.root root]
  · rw [index.inner root, index'.inner root]

/-- A directory that is to have an index has one. -/
theorem exists_indexesIn_eq (made : plan.artifacts = .ok artifacts)
    (wanted : plan.request.output.moduleIndex = true) {directory : FilePath}
    (has : plan.Indexes directory) :
    ∃ artifact, indexesIn artifacts directory = [artifact] ∧ plan.IsIndex directory artifact := by
  obtain ⟨⟨module, leads⟩, wants⟩ := has
  obtain ⟨indexed, among, same⟩ := exists_directoryToIndex leads wants
  obtain ⟨artifact, found⟩ :=
    succeeds_indexes_iff.1 (succeeds_artifacts_iff_each.1 ⟨artifacts, made⟩).2 wanted indexed among
  have index := (isIndex_of_index (List.mem_of_mem_filter among) found).congr same
  have member : artifact ∈ artifacts.filter (·.kind = .index) :=
    List.mem_filter.2 ⟨(mem_artifacts_iff made).2 (.inr ⟨wanted, indexed, among, found⟩),
      decide_eq_true index.kind⟩
  rw [indexesIn, ← index.dropLast_path]
  exact ⟨artifact, filter_eq_singleton (pairwise_indexArtifacts made) member, index⟩

/-- An artifact of this name in a directory is the file of a job or the index of the directory. -/
theorem origin_of_artifact (planned : Planned request plan) (made : plan.artifacts = .ok artifacts)
    {artifact : Artifact} (member : artifact ∈ artifacts) {directory : FilePath} {name : String}
    (path : artifact.path.components = directory.components ++ [FilePath.Component.entry name]) :
    (∃ job ∈ plan.jobs, job.artifact = .ok artifact ∧
      job.place.directory.components = directory.components ∧ job.task.fileModule ++ ".rs" = name) ∨
    (plan.request.output.moduleIndex = true ∧ artifact.kind = .index ∧ plan.Indexes directory ∧
      plan.indexFile directory = name) := by
  obtain ⟨job, among, found⟩ | ⟨asked, indexed, among, found⟩ := (mem_artifacts_iff made).1 member
  · rw [(eq_of_artifact found).2.2, planned.components_path made among] at path
    obtain ⟨directories, names⟩ := List.append_inj' path rfl
    exact .inl ⟨job, among, found, directories,
      FilePath.Component.entry.inj (List.singleton_inj.1 names)⟩
  · rw [components_path_of_index found] at path
    obtain ⟨directories, names⟩ := List.append_inj' path rfl
    have names := FilePath.Component.entry.inj (List.singleton_inj.1 names)
    rw [indexFile, plan.isCrateRoot_congr directories] at names
    exact .inr ⟨asked, kind_of_index found,
      (indexes_of_directoryToIndex among).congr directories, names⟩

/-- The file of each job is an artifact. -/
theorem exists_artifact_of_job (made : plan.artifacts = .ok artifacts) {job : Job}
    (member : job ∈ plan.jobs) :
    ∃ file ∈ artifacts, job.artifact = .ok file ∧ file.path = job.path := by
  obtain ⟨file, found⟩ := (succeeds_artifacts_iff_each.1 ⟨artifacts, made⟩).1 job member
  exact ⟨file, (mem_artifacts_iff made).2 (.inl ⟨job, member, found⟩), found,
    (eq_of_artifact found).2.2⟩

/-! ## Chains of declarations -/

/-- An index of the directory declares the module. -/
def Declares (artifacts : List Artifact) (directory : FilePath) (module : String) : Prop :=
  ∃ artifact ∈ indexesIn artifacts directory, ∃ file : Code.File,
    file.render = .ok artifact.content ∧ module ∈ file.declares

/-- Declarations lead from a directory to a file: the index of each directory declares the next
module, and the last module is that of the file. -/
inductive Reaches (artifacts : List Artifact) (file : FilePath) : FilePath → List String → Prop where
  /-- The file stands in the directory. -/
  | last {directory : FilePath} {module : String} (declared : Declares artifacts directory module)
      (same : file = directory.push (module ++ ".rs")) : Reaches artifacts file directory [module]
  /-- The file stands below a module of the directory. -/
  | next {directory : FilePath} {module : String} {rest : List String}
      (declared : Declares artifacts directory module)
      (further : Reaches artifacts file (directory.push module) rest) :
      Reaches artifacts file directory (module :: rest)

/-- Where each module on the way is declared, the file at its end is reached. -/
theorem reaches_of_declares {directory : FilePath} {module : String} {segments : List String}
    (declared : ∀ k next, (segments ++ [module])[k]? = some next →
      Declares artifacts ((segments.take k).foldl FilePath.push directory) next) :
    Reaches artifacts ((segments.foldl FilePath.push directory).push (module ++ ".rs")) directory
      (segments ++ [module]) := by
  induction segments generalizing directory with
  | nil => exact .last (declared 0 module rfl) rfl
  | cons segment rest ih =>
    exact .next (declared 0 segment rfl) (ih fun k next found => declared (k + 1) next found)

/-! ## The tree -/

/-- An index of a directory that is to have one declares the modules that paths of jobs lead to. -/
theorem declares_of_leadsTo (made : plan.artifacts = .ok artifacts)
    (wanted : plan.request.output.moduleIndex = true) {directory : FilePath}
    (wants : plan.Wants directory) {module : String} (leads : plan.LeadsTo directory module) :
    Declares artifacts directory module := by
  obtain ⟨artifact, only, index⟩ := exists_indexesIn_eq made wanted ⟨⟨module, leads⟩, wants⟩
  obtain ⟨file, rendered, lists⟩ := index.content
  exact ⟨artifact, only ▸ List.mem_singleton_self artifact, file, rendered,
    (lists.declared module).2 leads⟩

theorem Planned.output_eq (planned : Planned request plan) :
    plan.request.output = request.output := by
  rw [planned.request_eq, Propagation.sameFrame_propagated request]

end Plan

/-- The number of directories above the tree of a job, which starts at the source root, or with the
first segment of a domain. -/
def Job.above (job : Job) : Nat :=
  if ModulePath.segments job.place.domain = [] then 0 else 1

theorem Job.above_le (job : Job) : job.above ≤ job.place.segments.length := by
  unfold above
  split
  · exact Nat.zero_le _
  · next given =>
    rw [Place.segments, List.length_append]
    exact Nat.le_add_right_of_le (List.length_pos_iff.2 given)

namespace Plan

variable {request : Request} {plan : Plan} {artifacts : List Artifact}

/-- Where all directories are indexed, declarations lead from the top of a job's tree to its file. -/
theorem reaches_path (made : plan.artifacts = .ok artifacts)
    (wanted : plan.request.output.moduleIndex = true)
    (asked : plan.request.output.rootIndex = true) {job : Job} (member : job ∈ plan.jobs) :
    Reaches artifacts job.path (job.place.along job.above) (job.modules.drop job.above) := by
  have modules : job.modules.drop job.above =
      job.place.segments.drop job.above ++ [job.task.fileModule] := by
    rw [Job.modules, List.drop_append_of_le_length job.above_le]
  rw [modules, Job.path, job.place.directory_eq_foldl job.above]
  refine reaches_of_declares fun k next found => ?_
  rw [← modules, List.getElem?_drop] at found
  rw [← Place.along_add]
  refine declares_of_leadsTo made wanted (.inl asked) ⟨job, member, _, ⟨?_, found⟩, rfl⟩
  unfold Job.above
  split
  · next root => exact .inr root
  · exact .inl (Nat.le_add_right 1 k)

/-- Where module indexes are asked for, each directory that paths of jobs lead through and that is to
have an index has exactly one, which lists the modules that they lead to; there are no other indexes.
Where all directories are to have one, declarations lead from the top of each job's tree to its file.
-/
theorem indexes_describe_tree (h : ofRequest request = .ok plan) (made : plan.artifacts = .ok artifacts)
    (wanted : request.output.moduleIndex = true) :
    (∀ directory, plan.Indexes directory →
      ∃ artifact, indexesIn artifacts directory = [artifact] ∧ plan.IsIndex directory artifact) ∧
    (∀ artifact ∈ artifacts, artifact.kind = .index →
      ∃ directory, plan.Indexes directory ∧ plan.IsIndex directory artifact) ∧
    (request.output.rootIndex = true → ∀ job ∈ plan.jobs,
      (∃ file ∈ artifacts, job.artifact = .ok file ∧ file.path = job.path) ∧
      Reaches artifacts job.path (job.place.along job.above) (job.modules.drop job.above)) := by
  rw [← (planned_of_ofRequest h).output_eq] at wanted ⊢
  refine ⟨fun directory has => exists_indexesIn_eq made wanted has,
    fun artifact member kind => exists_isIndex made member kind,
    fun asked job member =>
      ⟨exists_artifact_of_job made member, reaches_path made wanted asked member⟩⟩

/-- The request for a key below a domain where all directories are indexed. -/
def domainKey : Request :=
  { keyBelow "New" "src" with output := ⟨"src", "model::algebra", true, true⟩ }

/-- Its plan. -/
def domainPlan : { plan : Plan // ofRequest domainKey = .ok plan ∧
    (plan.makes && plan.request.output.rootIndex &&
      plan.jobs.all (fun job => decide (job.task.fileModule ≠ "algebra")) &&
      !plan.isCrateRoot ⟨"src/model/algebra"⟩ && plan.jobs.any fun job =>
        decide (job.above = 1) && decide (job.place.along 1 = ⟨"src/model"⟩) &&
          decide (job.modules = ["model", "algebra", "keys", "new_keys"])) = true } :=
  passing <| by
    simp only [makes_eq, ofRequest, allJobs, directoriesToIndex, indexedDirectories,
      managedDirectories, ModuleIndex.file, Ordered.sortedTexts, Ordered.sortedSet_eq_foldr]
    decide +kernel

/-- The directories of a domain have an index each, from its first segment down to the key. -/
theorem indexes_describe_tree_domain :
    ∃ plan artifacts, ofRequest domainKey = .ok plan ∧ plan.artifacts = .ok artifacts ∧
      (∃ index, indexesIn artifacts ⟨"src/model"⟩ = [index] ∧
        plan.IsIndex ⟨"src/model"⟩ index) ∧
      ∃ job ∈ plan.jobs,
        Reaches artifacts job.path ⟨"src/model"⟩ ["algebra", "keys", "new_keys"] := by
  obtain ⟨plan, planned, passed⟩ := domainPlan
  simp only [Bool.and_eq_true, List.any_eq_true, decide_eq_true_eq] at passed
  obtain ⟨⟨⟨⟨makes_, asked⟩, -⟩, -⟩, job, member, ⟨above, top⟩, modules⟩ := passed
  obtain ⟨artifacts, made⟩ := exists_of_makes makes_
  obtain ⟨has, -, reaches⟩ := indexes_describe_tree planned made rfl
  have leads : plan.LeadsTo ⟨"src/model"⟩ "algebra" :=
    ⟨job, member, 1, ⟨.inl (Nat.le_refl 1), by rw [modules]; rfl⟩, by rw [top]⟩
  refine ⟨plan, artifacts, planned, made, has _ ⟨⟨_, leads⟩, .inl asked⟩, job, member, ?_⟩
  have reached := (reaches rfl job member).2
  rwa [above, top, modules] at reached

end Plan

end Slotwise
