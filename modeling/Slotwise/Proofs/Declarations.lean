import Slotwise.Proofs.Indexes
/-!
# Files of declared modules

An index declares modules that stand in files of their own, and modules that are directories with an
index. Nothing brings the two together. The index of an owned directory declares a directory in it that
has no index, since that one is not owned itself; and a file can be called as a directory beside it.

Main statements: when a declared module has exactly one file (`declared_once`), and plans where it has
none or two (`not_declared_once`).
-/

namespace Slotwise.Plan

variable {request : Request} {plan : Plan} {artifacts : List Artifact}

/-- The module is a file of the directory: that of a job, or the index itself if it is called so. -/
def InFile (plan : Plan) (directory : FilePath) (module : String) : Prop :=
  (∃ job ∈ plan.jobs, job.place.directory.components = directory.components ∧
    job.task.fileModule = module) ∨ plan.indexFile directory = module ++ ".rs"

/-- The module is a directory with an index, but not the root of a crate. -/
def InDirectory (plan : Plan) (directory : FilePath) (module : String) : Prop :=
  plan.Indexes (directory.push module) ∧ ¬plan.RootOfCrate (directory.push module)

/-- An artifact is under these names in a directory. -/
def Holds (artifacts : List Artifact) (directory : FilePath) (names : List String) : Prop :=
  ∃ file ∈ artifacts, file.path.components = directory.components ++ names.map .entry

/-- Of the two files that a module of a directory can stand in, exactly one is among the artifacts. -/
def DefinedOnce (artifacts : List Artifact) (directory : FilePath) (module : String) : Prop :=
  Xor (Holds artifacts directory [module ++ ".rs"]) (Holds artifacts directory [module, "mod.rs"])

/-! ## Files by their directory and name -/

/-- Only `lib` and `mod` are called as indexes. -/
theorem indexFile_ne (directory : FilePath) {module : String} (notLib : module ≠ "lib")
    (notMod : module ≠ "mod") : plan.indexFile directory ≠ module ++ ".rs" := by
  obtain file | file := plan.indexFile_eq_or directory <;> rw [file]
  · rw [← lib_append, Ne, String.append_left_inj]
    exact notLib.symm
  · rw [← mod_append, Ne, String.append_left_inj]
    exact notMod.symm

/-- The artifact of this name in a directory is that of a job or the index of the directory. -/
theorem holds_iff (planned : Planned request plan) (made : plan.artifacts = .ok artifacts)
    {directory : FilePath} {name : String} :
    Holds artifacts directory [name] ↔
      (∃ job ∈ plan.jobs, job.place.directory.components = directory.components ∧
        job.task.fileModule ++ ".rs" = name) ∨
      (plan.request.output.moduleIndex = true ∧ plan.Indexes directory ∧
        plan.indexFile directory = name) := by
  simp only [Holds, List.map_cons, List.map_nil]
  constructor
  · rintro ⟨file, member, path⟩
    obtain ⟨job, among, -, origin⟩ | ⟨asked, -, origin⟩ := origin_of_artifact planned made member path
    · exact .inl ⟨job, among, origin⟩
    · exact .inr ⟨asked, origin⟩
  · rintro (⟨job, among, directories, rfl⟩ | ⟨asked, indexes, rfl⟩)
    · obtain ⟨file, inside, -, path⟩ := exists_artifact_of_job made among
      exact ⟨file, inside, by rw [path, planned.components_path made among, directories]⟩
    · obtain ⟨artifact, only, index⟩ := exists_indexesIn_eq made asked indexes
      have member : artifact ∈ indexesIn artifacts directory :=
        only ▸ List.mem_singleton_self artifact
      refine ⟨artifact, (mem_indexesIn_iff.1 member).1, ?_⟩
      by_cases root : plan.RootOfCrate directory
      · rw [index.root root, indexFile, if_pos (isCrateRoot_iff.2 root)]
      · rw [index.inner root, indexFile, if_neg (isCrateRoot_iff.not.2 root)]

theorem holds_file_iff (planned : Planned request plan) (made : plan.artifacts = .ok artifacts)
    (asked : plan.request.output.moduleIndex = true) {directory : FilePath}
    (indexes : plan.Indexes directory) (module : String) :
    Holds artifacts directory [module ++ ".rs"] ↔ plan.InFile directory module := by
  rw [holds_iff planned made, InFile, and_iff_right asked, and_iff_right indexes]
  simp only [String.append_left_inj]

theorem holds_mod_iff (planned : Planned request plan) (made : plan.artifacts = .ok artifacts)
    (asked : plan.request.output.moduleIndex = true) {directory : FilePath} {module : String}
    (plain : FilePath.IsPlain module) :
    Holds artifacts directory [module, "mod.rs"] ↔ plan.InDirectory directory module := by
  have below : Holds artifacts directory [module, "mod.rs"] ↔
      Holds artifacts (directory.push module) ["mod.rs"] := by
    rw [Holds, Holds, FilePath.components_push _ plain, List.append_assoc]
    rfl
  rw [below, holds_iff planned made, InDirectory, and_iff_right asked, indexFile]
  have noJob : ¬∃ job ∈ plan.jobs,
      job.place.directory.components = (directory.push module).components ∧
        job.task.fileModule ++ ".rs" = "mod.rs" := by
    rintro ⟨job, among, -, same⟩
    rw [← mod_append, String.append_left_inj] at same
    exact Task.fileModule_ne_mod (planned.reads among) same
  rw [or_iff_right noJob, ← isCrateRoot_iff]
  refine and_congr_right fun _ => ?_
  split
  · next root => exact iff_of_false (by decide) (not_not_intro root)
  · next inner => exact iff_of_true rfl inner

/-! ## Declared modules -/

/-- What the path of a job leads to in a directory is a file there or leads on. -/
theorem exists_job_or_leadsTo {directory : FilePath} {module : String}
    (plain : FilePath.IsPlain module) (leads : plan.LeadsTo directory module) :
    (∃ job ∈ plan.jobs, job.place.directory.components = directory.components ∧
      job.task.fileModule = module) ∨ ∃ next, plan.LeadsTo (directory.push module) next := by
  obtain ⟨job, among, k, ⟨inside, next⟩, spelled⟩ := leads
  by_cases last : k < job.place.segments.length
  · have segment : job.place.segments[k]? = some module := by
      rwa [Job.modules, List.getElem?_append_left last] at next
    have further : k + 1 < job.modules.length := by
      rw [Job.modules, List.length_append]
      exact Nat.succ_lt_succ last
    refine .inr ⟨_, job, among, k + 1, ⟨.inl (Nat.le_add_left 1 k),
      List.getElem?_eq_getElem further⟩, ?_⟩
    rw [Place.along_succ _ segment, FilePath.components_push _ plain,
      FilePath.components_push _ plain, spelled]
  · rw [Job.modules, List.getElem?_append_right (Nat.le_of_not_lt last),
      List.getElem?_singleton] at next
    split at next
    · next only =>
      have whole : k = job.place.segments.length := by omega
      rw [whole, Place.along_length] at spelled
      exact .inl ⟨job, among, spelled, Option.some.inj next⟩
    · cases next

/-- A module that is declared in a directory has exactly one file, unless it is a file and a directory
with an index, or else a directory that is to have no index or is the root of a crate. -/
theorem definedOnce_iff (planned : Planned request plan) (made : plan.artifacts = .ok artifacts)
    (asked : plan.request.output.moduleIndex = true) {directory : FilePath}
    (indexes : plan.Indexes directory) {module : String} (plain : FilePath.IsPlain module)
    (leads : plan.LeadsTo directory module) :
    DefinedOnce artifacts directory module ↔
      (plan.InFile directory module → ¬plan.InDirectory directory module) ∧
      (¬plan.InFile directory module →
        plan.Wants (directory.push module) ∧ ¬plan.RootOfCrate (directory.push module)) := by
  rw [DefinedOnce, holds_file_iff planned made asked indexes, holds_mod_iff planned made asked plain]
  by_cases file : plan.InFile directory module
  · simp [file, Xor]
  · -- what is no file is a directory that paths of jobs lead through
    have further := (exists_job_or_leadsTo plain leads).resolve_left fun job => file (.inl job)
    have inDirectory : plan.InDirectory directory module ↔
        plan.Wants (directory.push module) ∧ ¬plan.RootOfCrate (directory.push module) :=
      and_congr_left fun _ => ⟨Indexes.wants, fun wants => ⟨further, wants⟩⟩
    rw [inDirectory]
    simp [file, Xor]

theorem isPlain_of_leadsTo (made : plan.artifacts = .ok artifacts)
    (asked : plan.request.output.moduleIndex = true) {directory : FilePath}
    (indexes : plan.Indexes directory) {module : String} (leads : plan.LeadsTo directory module) :
    FilePath.IsPlain module := by
  obtain ⟨indexed, among, same⟩ := exists_directoryToIndex leads indexes.wants
  have succeeds :=
    succeeds_indexes_iff.1 (succeeds_artifacts_iff_each.1 ⟨artifacts, made⟩).2 asked indexed among
  refine FilePath.isPlain_of_isLegal ((succeeds_index_iff.1 succeeds).1 module ?_)
  exact (mem_modules_iff (List.mem_of_mem_filter among)).2 ((leadsTo_congr same module).2 leads)

/-- Each index declares the modules that paths of jobs lead to. Such a module has exactly one file,
unless it is a file and a directory with an index, or else a directory that is to have no index or is
the root of a crate. -/
theorem declared_once (h : ofRequest request = .ok plan) (made : plan.artifacts = .ok artifacts)
    (wanted : request.output.moduleIndex = true) :
    ∀ artifact ∈ artifacts, artifact.kind = .index →
      ∀ directory : FilePath, artifact.path.components.dropLast = directory.components →
        ∃ file : Code.File, file.render = .ok artifact.content ∧
          (∀ module, module ∈ file.declares ↔ plan.LeadsTo directory module) ∧
          ∀ module ∈ file.declares, DefinedOnce artifacts directory module ↔
            (plan.InFile directory module → ¬plan.InDirectory directory module) ∧
            (¬plan.InFile directory module → plan.Wants (directory.push module) ∧
              ¬plan.RootOfCrate (directory.push module)) := by
  intro artifact member kind directory stands
  have planned := planned_of_ofRequest h
  rw [← planned.output_eq] at wanted
  obtain ⟨own, indexes, index⟩ := exists_isIndex made member kind
  have same : own.components = directory.components := index.dropLast_path.symm.trans stands
  have indexes := indexes.congr same
  obtain ⟨file, rendered, lists⟩ := (index.congr same).content
  refine ⟨file, rendered, lists.declared, fun module declared => ?_⟩
  have leads := (lists.declared module).1 declared
  exact definedOnce_iff planned made wanted indexes (isPlain_of_leadsTo made wanted indexes leads) leads

/-- The directory of a domain declares the next segment, which is a directory with an index and no
file. -/
theorem declared_once_domain :
    ∃ plan artifacts, ofRequest domainKey = .ok plan ∧ plan.artifacts = .ok artifacts ∧
      ∃ index ∈ indexesIn artifacts ⟨"src/model"⟩, ∃ file : Code.File,
        file.render = .ok index.content ∧ "algebra" ∈ file.declares ∧
        DefinedOnce artifacts ⟨"src/model"⟩ "algebra" := by
  obtain ⟨plan, planned, passed⟩ := domainPlan
  simp only [Bool.and_eq_true, Bool.not_eq_true', List.any_eq_true, List.all_eq_true,
    decide_eq_true_eq] at passed
  obtain ⟨⟨⟨⟨makes_, all⟩, noFile⟩, inner⟩, job, member, ⟨-, top⟩, modules⟩ := passed
  obtain ⟨artifacts, made⟩ := exists_of_makes makes_
  have asked : plan.request.output.moduleIndex = true := by
    rw [(planned_of_ofRequest planned).output_eq]
    rfl
  have leads : plan.LeadsTo ⟨"src/model"⟩ "algebra" :=
    ⟨job, member, 1, ⟨.inl (Nat.le_refl 1), by rw [modules]; rfl⟩, by rw [top]⟩
  obtain ⟨index, only, -⟩ := exists_indexesIn_eq made asked ⟨⟨_, leads⟩, .inl all⟩
  have among : index ∈ indexesIn artifacts ⟨"src/model"⟩ := only ▸ List.mem_singleton_self index
  obtain ⟨inside, kind, stands⟩ := mem_indexesIn_iff.1 among
  obtain ⟨file, rendered, declares, once⟩ := declared_once planned made rfl index inside kind _ stands
  have declared := (declares "algebra").2 leads
  refine ⟨plan, artifacts, planned, made, index, among, file, rendered, declared,
    (once "algebra" declared).2 ⟨fun held => ?_, fun _ => ⟨.inl all, ?_⟩⟩⟩
  · obtain ⟨job, member, -, module⟩ | called := held
    · exact absurd module (noFile job member)
    · exact absurd called (indexFile_ne _ (by decide) (by decide))
  · have within : FilePath.push ⟨"src/model"⟩ "algebra" = ⟨"src/model/algebra"⟩ := by decide
    rw [within, ← isCrateRoot_iff, inner]
    exact Bool.false_ne_true

/-! ## Modules without a file and with two -/

/-- The request for a key, and another one in or below this package. -/
def keysApart (package : String) (rootIndex : Bool) : Request :=
  { keyBelow "New" "src" with
    output := ⟨"src", "", true, rootIndex⟩
    keys := [.new "New" 1, { KeyGroup.new "Old" 1 with location := .inPackage package }] }

/-- The plan with the second key in a package below that of the first one. -/
def geoPlan : { plan : Plan // ofRequest (keysApart "keys::geo" false) = .ok plan ∧
    (plan.makes &&
      plan.jobs.any (fun job => decide (job.place.along 1 = ⟨"src/keys"⟩) &&
        decide (job.modules[1]? = some "geo")) &&
      plan.jobs.all (fun job => decide (job.task.fileModule ≠ "geo")) &&
      plan.managedDirectories.any (·.same ⟨"src/keys"⟩) &&
      plan.managedDirectories.all (fun owned => !owned.same ⟨"src/keys/geo"⟩) &&
      !plan.request.output.rootIndex && plan.request.output.moduleIndex) = true } :=
  passing <| by
    simp only [makes_eq, ofRequest, allJobs, directoriesToIndex, indexedDirectories,
      managedDirectories, ModuleIndex.file, Ordered.sortedTexts, Ordered.sortedSet_eq_foldr]
    decide +kernel

/-- The directory of the first key is owned and has an index, which declares the directory in it that
leads to the second one; but that directory is not owned and has none. -/
theorem exists_declared_nowhere :
    ∃ plan artifacts, ofRequest (keysApart "keys::geo" false) = .ok plan ∧
      plan.artifacts = .ok artifacts ∧ Declares artifacts ⟨"src/keys"⟩ "geo" ∧
      ¬Holds artifacts ⟨"src/keys"⟩ ["geo.rs"] ∧
      ¬Holds artifacts ⟨"src/keys"⟩ ["geo", "mod.rs"] := by
  obtain ⟨plan, planned, passed⟩ := geoPlan
  simp only [Bool.and_eq_true, Bool.not_eq_true', List.any_eq_true, List.all_eq_true,
    decide_eq_true_eq] at passed
  obtain ⟨⟨⟨⟨⟨⟨makes_, job, member, top, next⟩, noFile⟩, owned, managed, same⟩, apart⟩, some_⟩,
    asked⟩ := passed
  obtain ⟨artifacts, made⟩ := exists_of_makes makes_
  have leads : plan.LeadsTo ⟨"src/keys"⟩ "geo" :=
    ⟨job, member, 1, ⟨.inl (Nat.le_refl 1), next⟩, by rw [top]⟩
  have wants : plan.Wants ⟨"src/keys"⟩ := .inr ⟨owned, managed, beq_iff_eq.1 same⟩
  have indexes : plan.Indexes ⟨"src/keys"⟩ := ⟨⟨_, leads⟩, wants⟩
  refine ⟨plan, artifacts, planned, made, declares_of_leadsTo made asked wants leads, ?_, ?_⟩
  · have name : "geo.rs" = "geo" ++ ".rs" := by decide
    rw [name, holds_file_iff (planned_of_ofRequest planned) made asked indexes]
    rintro (⟨job, member, -, module⟩ | file)
    · exact noFile job member module
    · exact indexFile_ne _ (by decide) (by decide) file
  · rw [holds_mod_iff (planned_of_ofRequest planned) made asked
      (isPlain_of_leadsTo made asked indexes leads)]
    rintro ⟨⟨-, all | ⟨owned, managed, same⟩⟩, -⟩
    · rw [some_] at all
      cases all
    · have other := apart owned managed
      rw [FilePath.same, same] at other
      revert other
      decide

/-- The plan with the second key in a package called like the file of the first one. -/
def newKeysPlan : { plan : Plan // ofRequest (keysApart "keys::new_keys" true) = .ok plan ∧
    (plan.makes &&
      plan.jobs.any (fun job => decide (job.place.directory = ⟨"src/keys"⟩) &&
        decide (job.task.fileModule = "new_keys")) &&
      plan.jobs.any (fun job => decide (job.place.along 2 = ⟨"src/keys/new_keys"⟩) &&
        decide (job.modules[2]? = some "keys")) &&
      !plan.isCrateRoot ⟨"src/keys/new_keys"⟩ && plan.request.output.rootIndex &&
      plan.request.output.moduleIndex) = true } :=
  passing <| by
    simp only [makes_eq, ofRequest, allJobs, directoriesToIndex, indexedDirectories,
      managedDirectories, ModuleIndex.file, Ordered.sortedTexts, Ordered.sortedSet_eq_foldr]
    decide +kernel

/-- The first key has a file beside the directory that leads to the second one, and that directory has an
index. -/
theorem exists_declared_twice :
    ∃ plan artifacts, ofRequest (keysApart "keys::new_keys" true) = .ok plan ∧
      plan.artifacts = .ok artifacts ∧ Declares artifacts ⟨"src/keys"⟩ "new_keys" ∧
      Holds artifacts ⟨"src/keys"⟩ ["new_keys.rs"] ∧
      Holds artifacts ⟨"src/keys"⟩ ["new_keys", "mod.rs"] := by
  obtain ⟨plan, planned, passed⟩ := newKeysPlan
  simp only [Bool.and_eq_true, Bool.not_eq_true', List.any_eq_true, decide_eq_true_eq] at passed
  obtain ⟨⟨⟨⟨⟨makes_, job, member, directory, module⟩, other, member', top, next⟩, inner⟩, all⟩,
    asked⟩ := passed
  obtain ⟨artifacts, made⟩ := exists_of_makes makes_
  have leads : plan.LeadsTo ⟨"src/keys"⟩ "new_keys" := by
    rw [← directory, ← module]
    exact leadsTo_fileModule member
  have further : plan.LeadsTo ⟨"src/keys/new_keys"⟩ "keys" :=
    ⟨other, member', 2, ⟨.inl (Nat.le_succ 1), next⟩, by rw [top]⟩
  have indexes : plan.Indexes ⟨"src/keys"⟩ := ⟨⟨_, leads⟩, .inl all⟩
  have within : FilePath.push ⟨"src/keys"⟩ "new_keys" = ⟨"src/keys/new_keys"⟩ := by decide
  refine ⟨plan, artifacts, planned, made, declares_of_leadsTo made asked (.inl all) leads, ?_, ?_⟩
  · have name : "new_keys.rs" = "new_keys" ++ ".rs" := by decide
    rw [name, holds_file_iff (planned_of_ofRequest planned) made asked indexes]
    exact .inl ⟨job, member, by rw [directory], module⟩
  · rw [holds_mod_iff (planned_of_ofRequest planned) made asked
      (isPlain_of_leadsTo made asked indexes leads), InDirectory, within, ← isCrateRoot_iff, inner]
    exact ⟨⟨⟨_, further⟩, .inl all⟩, Bool.false_ne_true⟩

/-- An index declares a module that has no file, and an index declares one that has two. -/
theorem not_declared_once :
    (∃ plan artifacts, ofRequest (keysApart "keys::geo" false) = .ok plan ∧
      plan.artifacts = .ok artifacts ∧ Declares artifacts ⟨"src/keys"⟩ "geo" ∧
      ¬DefinedOnce artifacts ⟨"src/keys"⟩ "geo") ∧
    ∃ plan artifacts, ofRequest (keysApart "keys::new_keys" true) = .ok plan ∧
      plan.artifacts = .ok artifacts ∧ Declares artifacts ⟨"src/keys"⟩ "new_keys" ∧
      ¬DefinedOnce artifacts ⟨"src/keys"⟩ "new_keys" := by
  constructor
  · obtain ⟨plan, artifacts, planned, made, declared, noFile, noDirectory⟩ := exists_declared_nowhere
    exact ⟨plan, artifacts, planned, made, declared, fun once =>
      once.elim (fun file => noFile file.1) fun directory => noDirectory directory.1⟩
  · obtain ⟨plan, artifacts, planned, made, declared, file, directory⟩ := exists_declared_twice
    exact ⟨plan, artifacts, planned, made, declared, fun once =>
      once.elim (fun only => only.2 directory) fun only => only.2 file⟩

end Slotwise.Plan
