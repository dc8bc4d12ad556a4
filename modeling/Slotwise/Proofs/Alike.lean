import Slotwise.Proofs.Acceptance
import Slotwise.Proofs.Indexes
/-!
# Plans whose files are the same

A job remembers the number of the declaration that it is for, and a key group the location that it was
declared at. Neither shows in a file. Where the jobs of two plans differ in nothing else, the plans give
the same files or both give none, and they index the same directories with the same modules. Only the
spelling of a directory can differ: an index takes it from the first job that leads there, for its name
and for its documentation.

Main statements: whether artifacts can be made (`Alike.succeeds_artifacts`), and the files of the jobs
among them (`Alike.files_eq`).
-/

namespace Slotwise

/-! ## Lists in strict order -/

namespace Ordered

theorem sortedTexts_congr {xs ys : List String} (same : ∀ x, x ∈ xs ↔ x ∈ ys) :
    sortedTexts xs = sortedTexts ys :=
  sortedSet_congr (fun _ _ => Std.LawfulEqOrd.eq_of_compare) same

end Ordered

/-! ## Documentation of a file -/

namespace Code

open Reader Grammar

/-- What comes first and can be read is the first member of what is read. -/
theorem Reader.manyBelow_succ {α : Type} {more : List Token → Bool} {item : Reader α}
    {tokens rest : List Token} {x : α} (starts : more tokens = true)
    (read : item tokens = some (x, rest)) (bound : Nat) :
    manyBelow more item (bound + 1) tokens =
      (manyBelow more item bound rest).map fun read => (x :: read.1, read.2) := by
  simp only [manyBelow, bind, StateT.bind, get, getThe, MonadStateOf.get, StateT.get, pure,
    Option.bind_some, starts, if_pos, read]
  cases manyBelow more item bound rest <;> rfl

theorem tokens_fileDoc (text : String) :
    (Node.fileDoc text).tokens = [.mark '#' false, .mark '!' false,
      .group .square [.word "doc", .mark '=' false, .literal (Text.quoteLiteral text)]] :=
  rfl

/-- The reader of one inner attribute. -/
def Grammar.innerAttribute (rules : Rules) : Reader Node := do
  sign "#"
  sign "!"
  return .attr true (← inside .square (metaBody rules))

/-- Documentation at the front is read as it was written, whatever its text is. -/
theorem innerAttributes_fileDoc (depth : Nat) (text : String) (rest : List Token) :
    innerAttributes (Rules.below (depth + 8)) ((Node.fileDoc text).tokens ++ rest) =
      (manyBelow startsInnerAttribute (innerAttribute (Rules.below (depth + 8)))
        (rest.length + 3) rest).map fun read => (Node.fileDoc text :: read.1, read.2) := by
  have read : innerAttribute (Rules.below (depth + 8)) ((Node.fileDoc text).tokens ++ rest) =
      some (Node.fileDoc text, rest) := by
    rw [tokens_fileDoc]
    rfl
  have starts : startsInnerAttribute ((Node.fileDoc text).tokens ++ rest) = true := by
    rw [tokens_fileDoc]
    rfl
  exact manyBelow_succ starts read (rest.length + 3)

/-- The depth that a file needs does not depend on its documentation. -/
theorem forTokens_fileDoc (text : String) (rest : List Token) :
    Rules.forTokens ((Node.fileDoc text).tokens ++ rest) =
      Rules.below (3 * (7 + Token.sizeAll rest) + 8) := by
  rw [Rules.forTokens, tokens_fileDoc]
  simp only [List.cons_append, List.nil_append, Token.sizeAll, Token.size]
  congr 2
  omega

/-- Whether a file is code does not depend on the text of its documentation. -/
theorem File.readsBack_fileDoc_iff {text other : String} {items : List Node} :
    File.ReadsBack ⟨[Node.fileDoc text], items⟩ ↔ File.ReadsBack ⟨[Node.fileDoc other], items⟩ := by
  have tokens (text : String) : File.tokens ⟨[Node.fileDoc text], items⟩ =
      (Node.fileDoc text).tokens ++ items.flatMap Node.tokens := by
    rw [File.tokens, List.flatMap_singleton]
  rw [ReadsBack, ReadsBack, tokens, tokens, ofTokens?, ofTokens?, readAll?, readAll?,
    forTokens_fileDoc, forTokens_fileDoc]
  simp only [bind, StateT.bind, innerAttributes_fileDoc]
  cases manyBelow startsInnerAttribute (innerAttribute _) _ (items.flatMap Node.tokens) with
  | none => rfl
  | some read =>
    simp only [Option.map_some, Option.bind_some]
    cases many (fun ts => !ts.isEmpty) _ read.2 with
    | none => rfl
    | some found =>
      obtain ⟨members, left⟩ := found
      cases left <;> rfl

end Code

/-- An index of the same modules is code under any documentation. -/
theorem ModuleIndex.readsBack_congr {doc other : String} {modules modules' : List String}
    (same : ∀ module, module ∈ modules ↔ module ∈ modules') :
    (∀ file, ModuleIndex.file doc modules = .ok file → file.ReadsBack) ↔
      ∀ file, ModuleIndex.file other modules' = .ok file → file.ReadsBack := by
  have unfolded (doc : String) (modules : List String) (P : Code.File → Prop) :
      (∀ file, ModuleIndex.file doc modules = .ok file → P file) ↔
        ∀ names, (Ordered.sortedTexts modules).mapM Naming.legal = .ok names →
          P ⟨[Code.Node.fileDoc (" " ++ doc)],
            names.map (fun name => Code.Node.isPublic (.moduleItem name none)) ++
              names.map fun name =>
                Code.Node.isPublic (.useItem false (.useStep name (some .useAll)))⟩ := by
    simp only [ModuleIndex.file, Outcome.bind_eq_ok_iff, Outcome.pure_eq_ok_iff]
    constructor
    · rintro each names legal
      exact each _ ⟨names, legal, rfl⟩
    · rintro each file ⟨names, legal, rfl⟩
      exact each names legal
  rw [unfolded, unfolded, Ordered.sortedTexts_congr same]
  exact forall₂_congr fun names _ => Code.File.readsBack_fileDoc_iff

/-! ## What shows of a job -/

/-- What of a task shows in a file: neither the number of a declaration nor the location of a key
group. -/
def Task.shown : Task → Task
  | .keys _ group => .keys 0 { group with location := .anywhere }
  | .lens _ record => .lens 0 record
  | .prism _ set => .prism 0 set
  | task => task

namespace Job

/-- What of a job shows in a file. -/
def shown (job : Job) : Job :=
  ⟨job.task.shown, job.place⟩

theorem artifact_shown (job : Job) : job.shown.artifact = job.artifact := by
  rcases job with ⟨task, place⟩
  cases task <;> rfl

theorem code_shown (job : Job) : job.shown.code = job.code := by
  rcases job with ⟨task, place⟩
  cases task <;> rfl

theorem kind_shown (job : Job) : job.shown.task.kind = job.task.kind := by
  rcases job with ⟨task, place⟩
  cases task <;> rfl

theorem fileModule_shown (job : Job) : job.shown.task.fileModule = job.task.fileModule := by
  rcases job with ⟨task, place⟩
  cases task <;> rfl

theorem path_shown (job : Job) : job.shown.path = job.path := by
  rw [path, path, fileModule_shown, shown]

theorem indexed_shown (job : Job) : job.shown.indexed = job.indexed := by
  rw [indexed, indexed, fileModule_shown, shown]

theorem leadsTo_shown {job : Job} {k : Nat} {module : String} :
    job.shown.LeadsTo k module ↔ job.LeadsTo k module := by
  have modules : job.shown.modules = job.modules := by
    rw [Job.modules, Job.modules, fileModule_shown, shown]
  constructor
  · rintro ⟨inside, next⟩
    exact ⟨inside, modules ▸ next⟩
  · rintro ⟨inside, next⟩
    exact ⟨inside, modules.symm ▸ next⟩

end Job

namespace Plan

theorem markerJobs_shown (job : Job) : markerJobs job.shown = markerJobs job := by
  rcases job with ⟨task, place⟩
  cases task <;> rfl

/-- Jobs of which the same shows write one file. -/
theorem corresponding_shown : Corresponding fun other job => other.shown = job.shown where
  refl _ := rfl
  marks {job other} same := by rw [← markerJobs_shown, same, markerJobs_shown]
  path {job other} same := by rw [← other.path_shown, same, job.path_shown]

/-- Jobs of which the same shows are the same, or jobs for one declaration under two numbers. -/
theorem eq_or_of_shown {job other : Job} (same : other.shown = job.shown) :
    other = job ∨ other.place = job.place ∧
      ((∃ i j group group', job.task = .keys i group ∧ other.task = .keys j group' ∧
          group'.stem = group.stem) ∨
        (∃ i j record, job.task = .lens i record ∧ other.task = .lens j record) ∨
        ∃ i j set, job.task = .prism i set ∧ other.task = .prism j set) := by
  rcases job with ⟨task, place⟩
  rcases other with ⟨task', place'⟩
  rw [Job.shown, Job.shown, Job.mk.injEq] at same
  obtain ⟨tasks, rfl⟩ := same
  cases task <;> cases task' <;> simp_all [Task.shown]

/-- A directory that the generator owns is that of a job of a managed kind, however it is written. -/
theorem exists_owned_iff {plan : Plan} {components : List FilePath.Component} :
    (∃ owned ∈ plan.managedDirectories, owned.components = components) ↔
      ∃ job ∈ plan.jobs, job.task.kind.isManaged = true ∧
        job.place.directory.components = components := by
  constructor
  · rintro ⟨owned, member, same⟩
    obtain ⟨job, among, managed, rfl⟩ := exists_job_of_managed member
    exact ⟨job, among, managed, same⟩
  · rintro ⟨job, among, managed, same⟩
    have member : job.place.directory ∈ ((plan.jobs.filter fun job =>
        job.task.kind.isManaged).map fun job => job.place.directory).reverse := by
      rw [List.mem_reverse]
      exact List.mem_map_of_mem (List.mem_filter.2 ⟨among, managed⟩)
    obtain ⟨owned, kept, equal⟩ := @Ordered.exists_mem_sortedSet _ FilePath.compare _ _ _ member
    exact ⟨owned, kept, (FilePath.compare_eq_iff.1 equal).symm.trans same⟩

/-! ## Plans that are alike -/

/-- The plans have the same options and the same of their jobs shows. -/
structure Alike (plan other : Plan) : Prop where
  /-- The options are the same. -/
  output : other.request.output = plan.request.output
  /-- What shows of the jobs is the same. -/
  shown : ∀ job, job ∈ other.jobs.map Job.shown ↔ job ∈ plan.jobs.map Job.shown

namespace Alike

variable {plan other : Plan}

theorem symm (alike : Alike plan other) : Alike other plan :=
  ⟨alike.output.symm, fun job => (alike.shown job).symm⟩

theorem exists_shown (alike : Alike plan other) {job : Job} (member : job ∈ other.jobs) :
    ∃ first ∈ plan.jobs, first.shown = job.shown :=
  List.mem_map.1 ((alike.shown _).1 (List.mem_map_of_mem member))

/-- What is said of what shows of a job holds of a job of both plans or of none. -/
theorem exists_job_iff (alike : Alike plan other) {P : Job → Prop}
    (shows_ : ∀ job, P job.shown ↔ P job) :
    (∃ job ∈ other.jobs, P job) ↔ ∃ job ∈ plan.jobs, P job := by
  have each (jobs : List Job) : (∃ job ∈ jobs, P job) ↔ ∃ job ∈ jobs.map Job.shown, P job := by
    simp only [List.mem_map, exists_exists_and_eq_and, shows_]
  rw [each other.jobs, each plan.jobs]
  exact exists_congr fun job => and_congr_left fun _ => alike.shown job

theorem leadsTo_iff (alike : Alike plan other) {directory : FilePath} {module : String} :
    other.LeadsTo directory module ↔ plan.LeadsTo directory module :=
  alike.exists_job_iff fun _ => exists_congr fun _ => and_congr_left fun _ => Job.leadsTo_shown

theorem rootOfCrate_iff (alike : Alike plan other) {directory : FilePath} :
    other.RootOfCrate directory ↔ plan.RootOfCrate directory :=
  alike.exists_job_iff fun _ => Iff.rfl

theorem owns_iff (alike : Alike plan other) {directory : FilePath} :
    (∃ owned ∈ other.managedDirectories, owned.components = directory.components) ↔
      ∃ owned ∈ plan.managedDirectories, owned.components = directory.components := by
  rw [exists_owned_iff, exists_owned_iff]
  exact alike.exists_job_iff fun job => by rw [job.kind_shown, Job.shown]

theorem wants_iff (alike : Alike plan other) {directory : FilePath} :
    other.Wants directory ↔ plan.Wants directory := by
  rw [Wants, Wants, alike.owns_iff, alike.output]

theorem indexes_iff (alike : Alike plan other) {directory : FilePath} :
    other.Indexes directory ↔ plan.Indexes directory := by
  constructor
  · rintro ⟨⟨module, leads⟩, wants⟩
    exact ⟨⟨module, alike.leadsTo_iff.1 leads⟩, alike.wants_iff.1 wants⟩
  · rintro ⟨⟨module, leads⟩, wants⟩
    exact ⟨⟨module, alike.leadsTo_iff.2 leads⟩, alike.wants_iff.2 wants⟩

/-- A directory has the same modules in both plans, however it is written. -/
theorem mem_modules_iff (alike : Alike plan other) {indexed indexed' : IndexedDirectory}
    (among : indexed ∈ plan.directoriesToIndex) (among' : indexed' ∈ other.directoriesToIndex)
    (same : indexed'.directory.components = indexed.directory.components) (module : String) :
    module ∈ indexed'.modules ↔ module ∈ indexed.modules := by
  rw [Plan.mem_modules_iff (List.mem_of_mem_filter among), alike.symm.leadsTo_iff,
    Plan.mem_modules_iff (List.mem_of_mem_filter among'), leadsTo_congr same]

/-- The index of a directory can be made in both plans or in none. -/
theorem succeeds_index_iff (alike : Alike plan other) {indexed indexed' : IndexedDirectory}
    (among : indexed ∈ plan.directoriesToIndex) (among' : indexed' ∈ other.directoriesToIndex)
    (same : indexed'.directory.components = indexed.directory.components) :
    Outcome.Succeeds (other.index indexed') ↔ Outcome.Succeeds (plan.index indexed) := by
  have modules := alike.mem_modules_iff among among' same
  rw [Plan.succeeds_index_iff, Plan.succeeds_index_iff, ModuleIndex.readsBack_congr modules]
  exact and_congr_left fun _ => forall_congr' fun module => by rw [modules]

theorem succeeds_indexes (alike : Alike plan other) (succeeds : Outcome.Succeeds plan.indexes) :
    Outcome.Succeeds other.indexes := by
  rw [succeeds_indexes_iff] at succeeds ⊢
  intro asked indexed' among'
  rw [alike.output] at asked
  obtain ⟨⟨module, leads⟩, wants⟩ := alike.indexes_iff.1 (indexes_of_directoryToIndex among')
  obtain ⟨indexed, among, same⟩ := exists_directoryToIndex leads wants
  exact (alike.succeeds_index_iff among among' same.symm).2 (succeeds asked indexed among)

theorem succeeds_artifacts (alike : Alike plan other) (succeeds : Outcome.Succeeds plan.artifacts) :
    Outcome.Succeeds other.artifacts := by
  rw [succeeds_artifacts_iff_each] at succeeds ⊢
  refine ⟨fun job member => ?_, alike.succeeds_indexes succeeds.2⟩
  obtain ⟨first, among, shown⟩ := alike.exists_shown member
  rw [← job.artifact_shown, ← shown, first.artifact_shown]
  exact succeeds.1 first among

end Alike

/-! ## The files of the jobs -/

variable {request request' : Request} {plan other : Plan} {artifacts artifacts' : List Artifact}

/-- The artifacts that are no indexes are the files of the jobs. -/
theorem mem_files_iff (made : plan.artifacts = .ok artifacts) {artifact : Artifact} :
    artifact ∈ artifacts.filter (·.kind ≠ .index) ↔ ∃ job ∈ plan.jobs, job.artifact = .ok artifact := by
  rw [List.mem_filter, mem_artifacts_iff made, decide_eq_true_eq]
  constructor
  · rintro ⟨file | ⟨-, indexed, -, found⟩, kind⟩
    · exact file
    · exact absurd (kind_of_index found) kind
  · rintro ⟨job, member, found⟩
    exact ⟨.inl ⟨job, member, found⟩, (eq_of_artifact found).1 ▸ kind_ne_index job.task⟩

/-- The artifacts that are indexes are those of the directories that get one. -/
theorem mem_indexArtifacts_iff (made : plan.artifacts = .ok artifacts) {artifact : Artifact} :
    artifact ∈ artifacts.filter (·.kind = .index) ↔ plan.request.output.moduleIndex = true ∧
      ∃ indexed ∈ plan.directoriesToIndex, plan.index indexed = .ok artifact := by
  rw [List.mem_filter, mem_artifacts_iff made, decide_eq_true_eq]
  constructor
  · rintro ⟨⟨job, -, found⟩ | index, kind⟩
    · exact absurd ((eq_of_artifact found).1.symm.trans kind) (kind_ne_index job.task)
    · exact index
  · rintro ⟨asked, indexed, among, found⟩
    exact ⟨.inr ⟨asked, indexed, among, found⟩, kind_of_index found⟩

/-- The files of the jobs are in strict order. -/
theorem Planned.pairwise_filter (planned : Planned request plan)
    (made : plan.artifacts = .ok artifacts) :
    (artifacts.filter (·.kind ≠ .index)).Pairwise fun a b => a.path.compare b.path = .lt := by
  obtain ⟨files, indexes, filesOk, indexesOk, perm, sorted⟩ := exists_files_of_artifacts made
  have noIndex : indexes.filter (·.kind ≠ .index) = [] := by
    refine List.filter_eq_nil_iff.2 fun index member => ?_
    obtain ⟨-, indexed, -, found⟩ := (mem_indexes_iff indexesOk).1 member
    simpa using kind_of_index found
  have perm := perm.filter (·.kind ≠ .index)
  rw [List.filter_append, noIndex, List.append_nil] at perm
  have apart : (artifacts.filter (·.kind ≠ .index)).Pairwise fun a b =>
      a.path.components ≠ b.path.components :=
    (perm.pairwise_iff Ne.symm).2 ((planned.pairwise_files filesOk).sublist List.filter_sublist)
  refine ((sorted.sublist List.filter_sublist).and apart).imp fun {a b} ⟨le, differ⟩ => ?_
  rw [← FilePath.compare_eq_iff.ne] at differ
  cases order : a.path.compare b.path <;> simp_all

/-- Plans that are alike give the same files of jobs, in the same order. -/
theorem Alike.files_eq (alike : Alike plan other) (planned : Planned request plan)
    (planned' : Planned request' other) (made : plan.artifacts = .ok artifacts)
    (made' : other.artifacts = .ok artifacts') :
    artifacts'.filter (·.kind ≠ .index) = artifacts.filter (·.kind ≠ .index) := by
  have : Std.TransCmp fun a b : Artifact => a.path.compare b.path := transCmp_of_part Artifact.path
  refine Ordered.eq_of_mem_iff (planned'.pairwise_filter made') (planned.pairwise_filter made)
    fun artifact => ?_
  rw [mem_files_iff made, mem_files_iff made']
  exact alike.exists_job_iff fun job => by rw [job.artifact_shown]

end Plan

end Slotwise
