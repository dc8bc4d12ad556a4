import Slotwise.Proofs.Execution
import Slotwise.Proofs.Indexed
import Slotwise.Proofs.Leading
import Slotwise.Proofs.Placement
import Slotwise.Proofs.SnakeCase
/-!
# Files of artifacts

The name of a file comes from the module that it holds, and that of the module from a declaration.
Changing the case of a name brings no slash into it, and the check of a declaration keeps its module
clear of keywords. So a file stands in the directory of its job, and only a module called `lib` can
take the place of an index.

Main statements: an artifact is a file of a job or an index (`mem_artifacts_iff`), and all artifacts
lead downwards if the directories of the jobs do (`local_of_artifact`).
-/

namespace Slotwise

/-! ## Letter case and slashes -/

namespace Text

theorem toNat_ofNat_of_ne_zero {n : Nat} (h : (Char.ofNat n).toNat ≠ 0) :
    (Char.ofNat n).toNat = n := by
  by_cases valid : n.isValidChar
  · rw [Char.ofNat, dif_pos valid]
    rfl
  · rw [Char.ofNat, dif_neg valid] at h
    exact absurd rfl h

theorem slash_of_runImage? {c : Char} (h : runImage? toLowerRuns c = some '/') : False := by
  have above : ∀ run ∈ toLowerRuns, '/'.toNat < run.2.2.2 := by decide +kernel
  obtain ⟨run, member, found⟩ := List.exists_of_findSome?_eq_some h
  have above := above run member
  simp only [Option.ite_none_right_eq_some, Option.some.injEq] at found
  have code := @toNat_ofNat_of_ne_zero (run.2.2.2 + (c.toNat - run.1))
    (by rw [found.2]; decide)
  rw [found.2] at code
  omega

/-- Only the slash has a slash in its lower case image. -/
theorem slash_of_mem_toLower {c : Char} (h : '/' ∈ toLower c) : c = '/' := by
  unfold toLower at h
  split at h
  · next small =>
    exact of_isAscii (P := fun c => '/' = c.toLower → c = '/') (by decide) (decide_eq_true small)
      (List.mem_singleton.1 h)
  · split at h
    · next image found =>
      have none_ : ∀ entry ∈ toLowerLong, '/' ∉ entry.2.map Char.ofNat := by decide
      obtain ⟨before, after, split_, -⟩ := List.lookup_eq_some_iff.1 found
      exact absurd h (none_ (c.toNat, image) (by rw [split_]; simp))
    · cases image : runImage? toLowerRuns c with
      | none =>
        rw [image] at h
        exact (List.mem_singleton.1 h).symm
      | some other =>
        rw [image, Option.getD_some, List.mem_singleton] at h
        exact (slash_of_runImage? (h ▸ image)).elim

end Text

namespace Naming

theorem slash_of_mem_snakeChars {afterSmall : Bool} {cs : List Char}
    (h : '/' ∈ snakeChars afterSmall cs) : '/' ∈ cs := by
  induction cs generalizing afterSmall with
  | nil => exact h
  | cons c rest ih =>
    rw [snakeChars] at h
    split at h
    · rw [List.mem_append, List.mem_append] at h
      obtain (mark | here) | later := h
      · split at mark
        · exact absurd mark (by decide)
        · exact absurd mark List.not_mem_nil
      · rw [Text.slash_of_mem_toLower here]
        exact List.mem_cons_self
      · exact List.mem_cons_of_mem _ (ih later)
    · obtain here | later := List.mem_cons.1 h
      · exact here ▸ List.mem_cons_self
      · exact List.mem_cons_of_mem _ (ih later)

theorem slashFree_snakeCase {name : String} (free : '/' ∉ name.toList) :
    '/' ∉ (snakeCase name).toList := by
  intro slash
  rw [snakeCase, String.toList_ofList] at slash
  exact free (slash_of_mem_snakeChars slash)

theorem slash_mem_capitalize {name : String} (slash : '/' ∈ name.toList) :
    '/' ∈ (capitalize name).toList := by
  unfold capitalize
  split
  · next empty =>
    rw [empty] at slash
    cases slash
  · next c rest text =>
    rw [text] at slash
    rw [String.toList_ofList, List.mem_append]
    obtain here | later := List.mem_cons.1 slash
    · subst here
      exact .inl (by decide)
    · exact .inr later

theorem slashFree_keysModule {stem suffix : String}
    (legal : isLegal (capitalize stem ++ suffix) = true) : '/' ∉ (keysModule stem).toList := by
  have free : '/' ∉ stem.toList := fun slash =>
    not_mem_of_isLegal legal (c := '/') (by decide)
      (by rw [String.toList_append]; exact List.mem_append_left _ (slash_mem_capitalize slash))
  rw [keysModule, String.toList_append, List.mem_append, not_or]
  exact ⟨slashFree_snakeCase free, by decide⟩

/-- The modules of key groups end in an `s`. -/
theorem keysModule_ne (stem : String) {name : String} (h : name.toList.getLast? ≠ some 's') :
    keysModule stem ≠ name := by
  intro same
  have last := congrArg (·.toList.getLast?) same
  rw [keysModule, String.toList_append, List.getLast?_append] at last
  exact h last.symm

end Naming

/-! ## Modules of files -/

namespace Task

open Naming

/-- The module of a task whose texts can stand in code holds no slash. -/
theorem slashFree_fileModule {task : Task} (spelled : task.Spelled) :
    '/' ∉ task.fileModule.toList := by
  have numbered (base : String) (h : Text.isIdentifier base.toList = true) (number : Nat) :
      '/' ∉ (base ++ toString number).toList :=
    not_mem_of_isLegal (isLegal_append_toString base h number) (by decide)
  cases task with
  | productMarker | sumMarker | setters => decide
  | product dimension => exact numbered "product_" (by decide) dimension
  | arithmetic dimension => exact numbered "product_arithmetic_" (by decide) dimension
  | sum dimension => exact numbered "sum_" (by decide) dimension
  | duality dimension => exact numbered "duality_" (by decide) dimension
  | evolvingProduct dimension =>
    exact numbered "evolving_product_" (by decide) dimension
  | evolvingSum dimension => exact numbered "evolving_sum_" (by decide) dimension
  | keys index group =>
    have legal : isLegal (capitalize group.stem ++ "Key") = true := spelled "Key" List.mem_cons_self
    exact slashFree_keysModule legal
  | lens index record => exact slashFree_snakeCase (not_mem_of_isLegal spelled.name (by decide))
  | prism index set => exact slashFree_snakeCase (not_mem_of_isLegal spelled.name (by decide))

/-- Only a record or variant set can have a module that is called as an index. -/
theorem declared_of_fileModule {task : Task} {name : String} (index : name = "mod" ∨ name = "lib")
    (same : task.fileModule = name) :
    (∃ index record, task = .lens index record) ∨ ∃ index set, task = .prism index set := by
  have first : name.toList.head? ∉ "psdef".toList.map some := by
    obtain rfl | rfl := index <;> decide
  have starts (text : String) (h : text.toList.head? ∈ "psdef".toList.map some) : text ≠ name :=
    fun same => first (same ▸ h)
  have numbered (base : String) (h : base.toList.head? ∈ "psdef".toList.map some) (number : Nat) :
      base ++ toString number ≠ name := by
    refine starts _ ?_
    rw [String.toList_append, List.head?_append]
    cases head : base.toList.head? with
    | none =>
      rw [head] at h
      exact absurd h (by decide)
    | some c =>
      rw [head] at h
      exact h
  have last : name.toList.getLast? ≠ some 's' := by
    obtain rfl | rfl := index <;> decide
  cases task with
  | productMarker | sumMarker | setters => exact absurd same (starts _ (by decide))
  | product dimension => exact absurd same (numbered "product_" (by decide) dimension)
  | arithmetic dimension => exact absurd same (numbered "product_arithmetic_" (by decide) dimension)
  | sum dimension => exact absurd same (numbered "sum_" (by decide) dimension)
  | duality dimension => exact absurd same (numbered "duality_" (by decide) dimension)
  | evolvingProduct dimension => exact absurd same (numbered "evolving_product_" (by decide) dimension)
  | evolvingSum dimension => exact absurd same (numbered "evolving_sum_" (by decide) dimension)
  | keys index group => exact absurd same (keysModule_ne group.stem last)
  | lens index record => exact .inl ⟨index, record, rfl⟩
  | prism index set => exact .inr ⟨index, set, rfl⟩

/-- No module of a task is called as the keyword that names indexes. -/
theorem fileModule_ne_mod {task : Task} (reads : task.Reads) : task.fileModule ≠ "mod" := by
  have keyword : ¬ModelText.IsName "mod" := by
    unfold ModelText.IsName
    decide +kernel
  intro same
  obtain ⟨index, record, rfl⟩ | ⟨index, set, rfl⟩ := declared_of_fileModule (.inl rfl) same
  · exact keyword (same ▸ reads.module)
  · exact keyword (same ▸ reads.module)

end Task

/-! ## Directories that jobs lead through -/

namespace FilePath

/-- A name below a relative path downwards. -/
theorem local_push {directory : FilePath} (relative : directory.isAbsolute = false)
    (down : .up ∉ directory.components) {name : String} (plain : IsPlain name) :
    (directory.push name).Local := by
  refine ⟨?_, ?_, ?_⟩
  · rw [isAbsolute_push, relative, plain.isAbsolute, Bool.or_false]
  · rw [components_push directory plain, List.mem_append, not_or]
    exact ⟨down, by simp⟩
  · obtain ⟨before, text, apart⟩ := exists_text_push directory plain.isAbsolute
    exact ⟨before, name, plain, text, apart⟩

/-- A path that is continued to a relative path is one itself, and the longer path goes through all of
its components. -/
theorem components_subset_foldl_push {segments : List String} {path : FilePath}
    (relative : (segments.foldl push path).isAbsolute = false) :
    path.isAbsolute = false ∧ path.components ⊆ (segments.foldl push path).components := by
  induction segments generalizing path with
  | nil => exact ⟨relative, List.Subset.refl _⟩
  | cons segment rest ih =>
    obtain ⟨relative, within⟩ := ih relative
    rw [isAbsolute_push, Bool.or_eq_false_iff] at relative
    refine ⟨relative.1, List.Subset.trans ?_ within⟩
    rw [components_push_of_relative path relative.2]
    split
    · next empty =>
      rw [components_eq, empty]
      exact List.nil_subset _
    · exact List.subset_append_left _ _

end FilePath

namespace Plan

open Disk DiskStep

variable {request : Request} {plan : Plan} {artifacts : List Artifact}

/-- A job lies in or below each directory that can be indexed. -/
theorem exists_foldl_of_mem_indexedDirectories {indexed : IndexedDirectory}
    (h : indexed ∈ plan.indexedDirectories) :
    ∃ job ∈ plan.jobs, ∃ rest : List String,
      job.place.directory = rest.foldl FilePath.push indexed.directory := by
  obtain ⟨job, inPlan, k, module, -, same⟩ := exists_along_of_indexedDirectory h
  exact ⟨job, inPlan, job.place.segments.drop k, same ▸ job.place.directory_eq_foldl k⟩

/-! ## Artifacts that lead downwards -/

/-- The directories of all jobs are relative paths without steps upwards. -/
def Downward (plan : Plan) : Prop :=
  ∀ job ∈ plan.jobs,
    job.place.directory.isAbsolute = false ∧ .up ∉ job.place.directory.components

instance (plan : Plan) : Decidable plan.Downward :=
  inferInstanceAs (Decidable (∀ job ∈ plan.jobs,
    job.place.directory.isAbsolute = false ∧ .up ∉ job.place.directory.components))

/-- The file of a job whose code can be made has a plain name. -/
theorem Planned.isPlain_file (planned : Planned request plan) (made : plan.artifacts = .ok artifacts)
    {job : Job} (member : job ∈ plan.jobs) :
    FilePath.IsPlain (job.task.fileModule ++ ".rs") := by
  have artifact := (succeeds_artifacts_iff_each.1 ⟨artifacts, made⟩).1 job member
  have spelled := (planned.succeeds_code_iff member).1 (Job.succeeds_artifact_iff.1 artifact).1
  refine FilePath.isPlain_of_mem (c := 'r') ?_ ?_ (by decide) <;> rw [String.toList_append]
  · rw [List.mem_append, not_or]
    exact ⟨Task.slashFree_fileModule spelled.declaration, by decide⟩
  · exact List.mem_append_right _ (by decide)

theorem isPlain_indexFile (plan : Plan) (directory : FilePath) :
    FilePath.IsPlain (plan.indexFile directory) := by
  obtain file | file := plan.indexFile_eq_or directory <;> rw [file]
  · exact FilePath.isPlain_of_mem (c := 'r') (by decide) (by decide) (by decide)
  · exact FilePath.isPlain_of_mem (c := 'r') (by decide) (by decide) (by decide)

/-- The file of a job stands in the job's directory. -/
theorem Planned.components_path (planned : Planned request plan)
    (made : plan.artifacts = .ok artifacts) {job : Job} (member : job ∈ plan.jobs) :
    job.path.components =
      job.place.directory.components ++ [.entry (job.task.fileModule ++ ".rs")] := by
  rw [Job.path, FilePath.components_push _ (planned.isPlain_file made member)]

/-- An index stands in its directory. -/
theorem components_path_of_index {indexed : IndexedDirectory} {artifact : Artifact}
    (h : plan.index indexed = .ok artifact) :
    artifact.path.components =
      indexed.directory.components ++ [.entry (plan.indexFile indexed.directory)] := by
  rw [path_of_index h, FilePath.components_push _ (plan.isPlain_indexFile _)]

theorem lib_append : "lib" ++ ".rs" = "lib.rs" := by decide

theorem mod_append : "mod" ++ ".rs" = "mod.rs" := by decide

/-- An artifact has a plain name, in a directory that some job lies in or below. -/
theorem exists_push_of_artifact (planned : Planned request plan)
    (made : plan.artifacts = .ok artifacts) {artifact : Artifact} (member : artifact ∈ artifacts) :
    ∃ job ∈ plan.jobs, ∃ (directory : FilePath) (rest : List String) (name : String),
      job.place.directory = rest.foldl FilePath.push directory ∧ FilePath.IsPlain name ∧
      artifact.path = directory.push name := by
  obtain ⟨job, among, found⟩ | ⟨-, indexed, among, found⟩ := (mem_artifacts_iff made).1 member
  · exact ⟨job, among, job.place.directory, [], job.task.fileModule ++ ".rs",
      List.foldl_nil.symm, planned.isPlain_file made among, (eq_of_artifact found).2.2⟩
  · obtain ⟨job, inPlan, rest, directory⟩ :=
      exists_foldl_of_mem_indexedDirectories (List.mem_of_mem_filter among)
    exact ⟨job, inPlan, indexed.directory, rest, plan.indexFile indexed.directory, directory,
      plan.isPlain_indexFile _, path_of_index found⟩

/-- Artifacts lead downwards if the directories of the jobs do. -/
theorem local_of_artifact (planned : Planned request plan) (made : plan.artifacts = .ok artifacts)
    (downward : plan.Downward) {artifact : Artifact} (member : artifact ∈ artifacts) :
    artifact.path.Local := by
  obtain ⟨job, inPlan, directory, rest, name, longer, plain, path⟩ :=
    exists_push_of_artifact planned made member
  obtain ⟨relative, down⟩ := downward job inPlan
  rw [longer] at relative down
  obtain ⟨relative, within⟩ := FilePath.components_subset_foldl_push relative
  rw [path]
  exact FilePath.local_push relative (fun up => down (within up)) plain

/-- The directories that the generator owns lead downwards if those of the jobs do. -/
theorem local_of_managed (planned : Planned request plan) (downward : plan.Downward)
    {directory : FilePath} (managed : directory ∈ plan.managedDirectories) : directory.Local := by
  obtain ⟨kind, folder, given, suffix⟩ := planned.exists_folder managed
  obtain ⟨front, name, ends, -⟩ := exists_ends_of_folder given suffix
  obtain ⟨job, among, -, rfl⟩ := exists_job_of_managed managed
  exact ⟨(downward job among).1, (downward job among).2, front, name, ends⟩

/-- The last name of an artifact's path is that of a source file. -/
theorem isSource_of_artifact (made : plan.artifacts = .ok artifacts) {artifact : Artifact}
    (member : artifact ∈ artifacts) : IsSource artifact.path.names := by
  obtain ⟨front, name, ends, source⟩ := exists_ends_of_source (suffix_path made member)
  exact ⟨_, name, ends.names, source⟩

end Plan

end Slotwise
