import Slotwise.Artifact
import Slotwise.Proofs.Order
/-!
# Directories and their modules

The path of a job leads from its source root through the directories of its segments to its file, and
in each directory to one module: the next segment, and in the last directory the module of the file.
Where a domain is given, the source root is code of others and does not count.

Main statements: what a job contributes to module indexes (`mem_indexed_iff`), and what is in them
(`mem_modules_iff`, `exists_indexedDirectory`).
-/

namespace Slotwise

namespace Place

/-- The directory that the first `k` segments of a place lead to. -/
def along (place : Place) (k : Nat) : FilePath :=
  (place.segments.take k).foldl FilePath.push ⟨place.sourceRoot⟩

theorem along_succ (place : Place) {k : Nat} {segment : String}
    (next : place.segments[k]? = some segment) :
    place.along (k + 1) = (place.along k).push segment := by
  rw [along, List.take_add_one, next, List.foldl_append]
  rfl

theorem along_add (place : Place) (j k : Nat) :
    place.along (j + k) = ((place.segments.drop j).take k).foldl FilePath.push (place.along j) := by
  rw [along, List.take_add, List.foldl_append]
  rfl

theorem along_length (place : Place) : place.along place.segments.length = place.directory := by
  rw [along, List.take_length]
  rfl

/-- A place lies in or below the directories on the way to it. -/
theorem directory_eq_foldl (place : Place) (k : Nat) :
    place.directory = (place.segments.drop k).foldl FilePath.push (place.along k) := by
  rw [along, ← List.foldl_append, List.take_append_drop]
  rfl

end Place

namespace Job

/-- The modules that the path of a job leads to, one in each directory: the segments, and then the
module of its file. -/
def modules (job : Job) : List String :=
  job.place.segments ++ [job.task.fileModule]

/-- In the directory that `k` segments of the job's place lead to, the path of the job leads to this
module. The source root counts only without domain. -/
structure LeadsTo (job : Job) (k : Nat) (module : String) : Prop where
  /-- The directory is not above the domain. -/
  inside : 1 ≤ k ∨ ModulePath.segments job.place.domain = []
  /-- The module comes next. -/
  next : job.modules[k]? = some module

theorem getElem?_indexedBelow (directory : FilePath) (module : String) (segments : List String)
    (k : Nat) :
    (indexedBelow directory module segments)[k]? =
      (segments ++ [module])[k]?.map
        fun next => ((segments.take k).foldl FilePath.push directory, next) := by
  induction segments generalizing directory k with
  | nil => cases k <;> rfl
  | cons segment rest ih =>
    cases k with
    | zero => rfl
    | succ k =>
      rw [indexedBelow, List.getElem?_cons_succ, ih]
      rfl

/-- What a job contributes to module indexes. -/
theorem mem_indexed_iff {job : Job} {entry : FilePath × String} :
    entry ∈ job.indexed ↔ ∃ k, job.LeadsTo k entry.2 ∧ entry.1 = job.place.along k := by
  have at_ (k : Nat) :
      (indexedBelow ⟨job.place.sourceRoot⟩ job.task.fileModule job.place.segments)[k]? = some entry ↔
        job.modules[k]? = some entry.2 ∧ entry.1 = job.place.along k := by
    rw [getElem?_indexedBelow, Option.map_eq_some_iff]
    constructor
    · rintro ⟨next, found, rfl⟩
      exact ⟨found, rfl⟩
    · rintro ⟨found, same⟩
      exact ⟨entry.2, found, Prod.ext same.symm rfl⟩
  rw [indexed, List.mem_iff_getElem?]
  split
  · next domain =>
    have root := List.isEmpty_iff.1 domain
    simp only [at_]
    exact exists_congr fun k => ⟨fun ⟨found, same⟩ => ⟨⟨.inr root, found⟩, same⟩,
      fun ⟨leads, same⟩ => ⟨leads.next, same⟩⟩
  · next domain =>
    have given : ModulePath.segments job.place.domain ≠ [] := fun root =>
      domain (List.isEmpty_iff.2 root)
    simp only [List.getElem?_drop, at_]
    constructor
    · rintro ⟨k, found, same⟩
      exact ⟨1 + k, ⟨.inl (Nat.le_add_right 1 k), found⟩, same⟩
    · rintro ⟨k, leads, same⟩
      have positive := leads.inside.resolve_right given
      refine ⟨k - 1, ?_⟩
      rw [Nat.add_sub_cancel' positive]
      exact ⟨leads.next, same⟩

/-- A job leads to its own module in its own directory. -/
theorem leadsTo_fileModule (job : Job) :
    job.LeadsTo job.place.segments.length job.task.fileModule := by
  refine ⟨?_, by rw [modules, List.getElem?_concat_length]⟩
  rw [Place.segments, List.length_append]
  cases ModulePath.segments job.place.domain with
  | nil => exact .inr rfl
  | cons first rest => exact .inl (by rw [List.length_cons]; omega)

end Job

namespace Plan

variable {plan : Plan}

/-- The path of some job leads to this module in this directory, however the directory is
written. -/
def LeadsTo (plan : Plan) (directory : FilePath) (module : String) : Prop :=
  ∃ job ∈ plan.jobs, ∃ k, job.LeadsTo k module ∧
    (job.place.along k).components = directory.components

theorem leadsTo_congr {a b : FilePath} (same : a.components = b.components) (module : String) :
    plan.LeadsTo a module ↔ plan.LeadsTo b module := by
  rw [LeadsTo, LeadsTo, same]

/-- Each job leads to its module in its directory. -/
theorem leadsTo_fileModule {job : Job} (member : job ∈ plan.jobs) :
    plan.LeadsTo job.place.directory job.task.fileModule :=
  ⟨job, member, _, job.leadsTo_fileModule, by rw [Place.along_length]⟩

/-- The modules of a directory are those that paths of jobs lead to. -/
theorem mem_modules_iff {indexed : IndexedDirectory} (member : indexed ∈ plan.indexedDirectories)
    {module : String} :
    module ∈ indexed.modules ↔ plan.LeadsTo indexed.directory module := by
  obtain ⟨directory, -, rfl⟩ := List.mem_map.1 member
  simp only [List.mem_map, List.mem_filter, List.mem_flatMap, Job.mem_indexed_iff, FilePath.same,
    beq_iff_eq]
  constructor
  · rintro ⟨entry, ⟨⟨job, among, k, leads, same⟩, spelled⟩, rfl⟩
    exact ⟨job, among, k, leads, same ▸ spelled⟩
  · rintro ⟨job, among, k, leads, spelled⟩
    exact ⟨(_, module), ⟨⟨job, among, k, leads, rfl⟩, spelled⟩, rfl⟩

/-- Where paths of jobs lead through a directory, it can be indexed under one of its spellings. -/
theorem exists_indexedDirectory {directory : FilePath} {module : String}
    (leads : plan.LeadsTo directory module) :
    ∃ indexed ∈ plan.indexedDirectories, indexed.directory.components = directory.components := by
  obtain ⟨job, among, k, leads, spelled⟩ := leads
  have own : (job.place.along k, module) ∈ job.indexed := Job.mem_indexed_iff.2 ⟨k, leads, rfl⟩
  have contributes : job.place.along k ∈ (plan.jobs.flatMap Job.indexed).map (·.1) :=
    List.mem_map.2 ⟨_, List.mem_flatMap.2 ⟨job, among, own⟩, rfl⟩
  obtain ⟨other, inside, same⟩ := @Ordered.exists_mem_sortedSet _ FilePath.compare _ _ _ contributes
  exact ⟨_, List.mem_map_of_mem inside, (FilePath.compare_eq_iff.1 same).symm.trans spelled⟩

/-- A directory that can be indexed is on the way to a job. -/
theorem exists_along_of_indexedDirectory {indexed : IndexedDirectory}
    (member : indexed ∈ plan.indexedDirectories) :
    ∃ job ∈ plan.jobs, ∃ k module, job.LeadsTo k module ∧ indexed.directory = job.place.along k := by
  obtain ⟨directory, among, rfl⟩ := List.mem_map.1 member
  obtain ⟨entry, contributed, rfl⟩ := List.mem_map.1 (Ordered.mem_of_mem_sortedSet among)
  obtain ⟨job, inPlan, inside⟩ := List.mem_flatMap.1 contributed
  obtain ⟨k, leads, same⟩ := Job.mem_indexed_iff.1 inside
  exact ⟨job, inPlan, k, entry.2, leads, same⟩

end Plan

end Slotwise
