import Slotwise.Proofs.Spelled
/-!
# Execution of plans

A plan that was made for a checked request can still fail to give its artifacts. The check reads the
texts of a request on their own; the code they become part of is read again as a whole, and some
texts are put into it in another form than the one that was checked.

Main statements: a plan gives its artifacts if and only if it is executable, which says what is left
to ask of its texts (`succeeds_artifacts_iff`), and plans that are not (`not_succeeds_artifacts`).
-/

namespace Slotwise

open Outcome Naming Code

/-! ## Files as text -/

/-- The tokens of the file form a file again. -/
def Code.File.ReadsBack (file : File) : Prop :=
  (File.ofTokens? file.tokens).isSome = true

theorem succeeds_render_iff {file : File} : Succeeds file.render ↔ file.ReadsBack := by
  unfold File.render File.ReadsBack
  split
  · next read found => exact iff_of_true (succeeds_pure _) (by rw [found]; rfl)
  · next none =>
    rw [none]
    exact iff_of_false (fun ⟨_, h⟩ => (by cases h)) Bool.false_ne_true

/-- What is made and then written as text. -/
theorem succeeds_bind_render_iff {made : Except Failure File} {α : Type} {f : String → α} :
    Succeeds (made >>= fun file => file.render >>= fun content => pure (f content)) ↔
      Succeeds made ∧ ∀ file, made = .ok file → file.ReadsBack := by
  rw [succeeds_bind_iff]
  constructor
  · rintro ⟨file, found, rendered⟩
    refine ⟨⟨file, found⟩, fun other same => ?_⟩
    cases found.symm.trans same
    exact succeeds_render_iff.1 (succeeds_bind_pure_iff.1 rendered)
  · rintro ⟨⟨file, found⟩, reads⟩
    exact ⟨file, found, succeeds_bind_pure_iff.2 (succeeds_render_iff.2 (reads file found))⟩

theorem Job.succeeds_artifact_iff {job : Job} :
    Succeeds job.artifact ↔ Succeeds job.code ∧ ∀ file, job.code = .ok file → file.ReadsBack :=
  succeeds_bind_render_iff

theorem ModuleIndex.succeeds_file_iff {doc : String} {modules : List String} :
    Succeeds (ModuleIndex.file doc modules) ↔ ∀ module ∈ modules, isLegal module = true := by
  rw [ModuleIndex.file, succeeds_bind_pure_iff, succeeds_mapM_legal_iff]
  refine forall_congr' fun module => ?_
  rw [Ordered.sortedTexts,
    Ordered.mem_sortedSet_iff fun _ _ _ _ => Std.LawfulEqOrd.eq_of_compare]

/-! ## Files that are known to be code

Reading the tokens of a file back takes longest by far when a plan is computed with. For files that are
in many plans it is done here, once.
-/

/-- The file of a key group depends on its place by the module path alone, and not on where the group
is declared. -/
theorem Keys.file_congr {group other : KeyGroup} {place elsewhere : Place}
    (stem : group.stem = other.stem) (count : group.count = other.count)
    (serializable : group.serializable = other.serializable)
    (path : place.modulePath = elsewhere.modulePath) :
    Keys.file group place = Keys.file other elsewhere := by
  simp only [Keys.file, Keys.nameOf, Keys.ofName, Keys.nameLiteral, Keys.qualifiedName, stem, count,
    serializable, path]

/-- Stems and module paths for which the file of one key is known to be code. -/
def knownKeys : { keys : List (String × String) // (keys.all fun (stem, path) =>
    (⟨"", "", path⟩ : Place).modulePath == path &&
      (Keys.file (.new stem 1) ⟨"", "", path⟩ >>= File.render).isOk) = true } :=
  ⟨[("Old", "keys"), ("New", "keys"), ("Old", "keys::geo"), ("Old", "keys::new_keys"),
    ("New", "model::algebra::keys")], by decide +kernel⟩

/-- The text of the setters, whose file is known to be code as well. -/
def settersText : { text : String // Optics.Support.file.render = .ok text } :=
  value (by decide +kernel)

/-- The file of the job is known to be code: that of the setters, or that of a known key. -/
def Job.isKnown (job : Job) : Bool :=
  match job.task with
  | .setters => true
  | .keys _ group => group.count == 1 && !group.serializable &&
      knownKeys.val.contains (group.stem, job.place.modulePath)
  | _ => false

theorem Job.succeeds_artifact_of_isKnown {job : Job} (h : job.isKnown = true) :
    Succeeds job.artifact := by
  obtain ⟨task, place⟩ := job
  cases task with
  | setters =>
    obtain ⟨text, rendered⟩ := settersText
    exact ⟨_, bind_eq_ok_iff.2 ⟨_, rfl, bind_eq_ok_iff.2 ⟨text, rendered, rfl⟩⟩⟩
  | keys index group =>
    simp only [isKnown, Bool.and_eq_true, beq_iff_eq, Bool.not_eq_true', List.contains_iff_mem] at h
    obtain ⟨⟨single, plain⟩, known⟩ := h
    have made := List.all_eq_true.1 knownKeys.property _ known
    rw [Bool.and_eq_true, beq_iff_eq] at made
    obtain ⟨text, made_⟩ := exists_of_isOk made.2
    obtain ⟨file, coded, rendered⟩ := bind_eq_ok_iff.1 made_
    have same : Keys.file group place =
        Keys.file (.new group.stem 1) ⟨"", "", place.modulePath⟩ :=
      Keys.file_congr rfl single plain made.1.symm
    exact ⟨_, bind_eq_ok_iff.2 ⟨file, same.trans coded, bind_eq_ok_iff.2 ⟨text, rendered, rfl⟩⟩⟩
  | _ => cases h

theorem Job.isOk_artifact_eq (job : Job) :
    job.artifact.isOk = (job.isKnown || job.artifact.isOk) := by
  cases known : job.isKnown with
  | true =>
    obtain ⟨artifact, made⟩ := succeeds_artifact_of_isKnown known
    rw [made]
    rfl
  | false => rfl

namespace Plan

/-! ## Checked declarations -/

theorem reads_of_records {request : Request} (h : Check.request request = .ok ()) {record : Record}
    (member : record ∈ request.propagated.records) : Check.RecordReads record := by
  obtain ⟨_, -, h⟩ := bind_eq_ok_iff.1 h
  obtain ⟨_, -, h⟩ := bind_eq_ok_iff.1 h
  obtain ⟨_, -, h⟩ := bind_eq_ok_iff.1 h
  obtain ⟨_, records, -⟩ := bind_eq_ok_iff.1 h
  obtain ⟨i, found⟩ := List.mem_iff_getElem?.1 member
  obtain ⟨original, found, same⟩ := Propagation.getElem?_records_propagated found
  have checked := forM_eq_ok_iff.1 records original (List.mem_of_getElem? found)
  have reads : Check.record record = .ok () := by
    rw [same]
    exact checked
  exact Check.recordReads_of_record reads

theorem reads_of_variantSets {request : Request} (h : Check.request request = .ok ())
    {set : VariantSet} (member : set ∈ request.propagated.variantSets) : Check.SetReads set := by
  obtain ⟨_, -, h⟩ := bind_eq_ok_iff.1 h
  obtain ⟨_, -, h⟩ := bind_eq_ok_iff.1 h
  obtain ⟨_, -, h⟩ := bind_eq_ok_iff.1 h
  obtain ⟨_, -, h⟩ := bind_eq_ok_iff.1 h
  obtain ⟨_, variantSets, -⟩ := bind_eq_ok_iff.1 h
  obtain ⟨i, found⟩ := List.mem_iff_getElem?.1 member
  obtain ⟨original, found, same⟩ := Propagation.getElem?_variantSets_propagated found
  have checked := forM_eq_ok_iff.1 variantSets original (List.mem_of_getElem? found)
  have reads : Check.variantSet set = .ok () := by
    rw [same]
    exact checked
  exact Check.setReads_of_variantSet reads

/-- The declarations of the jobs of a plan passed their checks. -/
theorem Planned.reads {request : Request} {plan : Plan} (planned : Planned request plan) {job : Job}
    (member : job ∈ plan.jobs) : job.task.Reads := by
  obtain requested | ⟨_, -, marks⟩ := planned.mem_jobs_iff.1 member
  · have numbered := requested.numbered
    rw [planned.request_eq] at numbered
    rcases job with ⟨task, place⟩
    cases task with
    | lens index record =>
      exact reads_of_records planned.checked (List.mem_of_getElem? numbered)
    | prism index set =>
      exact reads_of_variantSets planned.checked (List.mem_of_getElem? numbered)
    | _ => trivial
  · obtain ⟨_, -, rfl⟩ | ⟨_, -, rfl⟩ := mem_markerJobs_iff.1 marks <;> trivial

/-- The code of a job of a plan. -/
theorem Planned.succeeds_code_iff {request : Request} {plan : Plan} (planned : Planned request plan)
    {job : Job} (member : job ∈ plan.jobs) : Succeeds job.code ↔ job.Spelled := by
  have sound : SoundRequest plan.request :=
    planned.request_eq ▸ (soundRequest_of_check planned.checked).propagated
  exact job.succeeds_code_iff (planned.reads member) fun imported among =>
    (Includes.target (planned.mem_jobs_iff.1 member) among).sound sound

/-! ## Artifacts -/

/-- What the module index of a directory says about itself. -/
def indexDoc (plan : Plan) (directory : FilePath) : String :=
  if plan.isCrateRoot directory then "Generated algebraic types."
  else "Generated modules in `" ++ directory.text ++ "`."

/-- A file that a plan makes: the code of a job or a module index. -/
inductive Makes (plan : Plan) : File → Prop where
  /-- The code of a job. -/
  | job {job : Job} {file : File} (member : job ∈ plan.jobs) (coded : job.code = .ok file) :
    Makes plan file
  /-- A module index. -/
  | index {indexed : IndexedDirectory} {file : File}
    (asked : plan.request.output.moduleIndex = true) (member : indexed ∈ plan.directoriesToIndex)
    (coded : ModuleIndex.file (plan.indexDoc indexed.directory) indexed.modules = .ok file) :
    Makes plan file

/-- What is asked of a plan beyond the check of its request. -/
structure Executable (plan : Plan) : Prop where
  /-- The texts of the jobs can stand in their files. -/
  spelled : ∀ job ∈ plan.jobs, job.Spelled
  /-- The modules can stand in the indexes, where these are asked for. -/
  indexed : plan.request.output.moduleIndex = true → ∀ indexed ∈ plan.directoriesToIndex,
    ∀ module ∈ indexed.modules, isLegal module = true
  /-- What the files hold is code. -/
  readsBack : ∀ file, plan.Makes file → file.ReadsBack

theorem succeeds_index_iff {plan : Plan} {indexed : IndexedDirectory} :
    Succeeds (plan.index indexed) ↔ (∀ module ∈ indexed.modules, isLegal module = true) ∧
      ∀ file, ModuleIndex.file (plan.indexDoc indexed.directory) indexed.modules = .ok file →
        file.ReadsBack := by
  rw [← @ModuleIndex.succeeds_file_iff (plan.indexDoc indexed.directory)]
  rw [index, indexDoc]
  cases plan.isCrateRoot indexed.directory with
  | true =>
    rw [if_pos rfl]
    exact succeeds_bind_render_iff
  | false =>
    rw [if_neg Bool.false_ne_true, if_neg Bool.false_ne_true]
    exact succeeds_bind_render_iff

theorem succeeds_indexes_iff {plan : Plan} :
    Succeeds plan.indexes ↔ (plan.request.output.moduleIndex = true →
      ∀ indexed ∈ plan.directoriesToIndex, Succeeds (plan.index indexed)) := by
  unfold indexes
  split
  · next asked => rw [succeeds_mapM_iff, forall_prop_of_true asked]
  · next unasked => exact iff_of_true ⟨[], rfl⟩ fun asked => absurd asked unasked

theorem succeeds_artifacts_iff_each {plan : Plan} :
    Succeeds plan.artifacts ↔ (∀ job ∈ plan.jobs, Succeeds job.artifact) ∧ Succeeds plan.indexes := by
  rw [artifacts, ← succeeds_mapM_iff, succeeds_bind_iff]
  constructor
  · rintro ⟨files, filesOk, indexes⟩
    exact ⟨⟨files, filesOk⟩, succeeds_bind_pure_iff.1 indexes⟩
  · rintro ⟨⟨files, filesOk⟩, indexes⟩
    exact ⟨files, filesOk, succeeds_bind_pure_iff.2 indexes⟩

/-- A plan for a checked request gives its artifacts if and only if it is executable. -/
theorem succeeds_artifacts_iff {request : Request} {plan : Plan}
    (h : ofRequest request = .ok plan) : Succeeds plan.artifacts ↔ plan.Executable := by
  have planned := planned_of_ofRequest h
  rw [succeeds_artifacts_iff_each, succeeds_indexes_iff]
  constructor
  · rintro ⟨files, indexes⟩
    refine ⟨fun job member => ?_, fun asked indexed member => ?_, fun file made => ?_⟩
    · exact (planned.succeeds_code_iff member).1
        (Job.succeeds_artifact_iff.1 (files job member)).1
    · exact (succeeds_index_iff.1 (indexes asked indexed member)).1
    · cases made with
      | job member coded => exact (Job.succeeds_artifact_iff.1 (files _ member)).2 file coded
      | index asked member coded =>
        exact (succeeds_index_iff.1 (indexes asked _ member)).2 file coded
  · intro executable
    refine ⟨fun job member => ?_, fun asked indexed member => ?_⟩
    · exact Job.succeeds_artifact_iff.2
        ⟨(planned.succeeds_code_iff member).2 (executable.spelled job member),
          fun file coded => executable.readsBack file (.job member coded)⟩
    · exact succeeds_index_iff.2 ⟨executable.indexed asked indexed member,
        fun file coded => executable.readsBack file (.index asked member coded)⟩

/-! ## Plans for single declarations -/

/-- The request for these declarations alone, without module indexes. -/
def declaring (records : List Record) (variantSets : List VariantSet) : Request :=
  { Request.empty with output := ⟨"src", "", false, false⟩, records, variantSets }

/-- A record with one field of this type. -/
def single (name : String) (type : TypeRef) : Record :=
  (Record.new name).withField (.new "x" type)

/-- A variant set with a base field of this name, for which its variants have these values. -/
def based (field first second : String) : VariantSet :=
  (((VariantSet.new "S").withField (.new field (TypeRef.named "f64"))).withVariant
    ((Variant.new "A").withBaseValue field first)).withVariant
      ((Variant.new "B").withBaseValue field second)

/-! ## Plans that are computed

The plan for a concrete request is computed once, together with all that is to be known of it, and
stands in a definition with what was found.
-/

/-- Whether a plan is made and passes a test. -/
def passes (made : Except Failure Plan) (test : Plan → Bool) : Bool :=
  match made with
  | .ok plan => test plan
  | .error _ => false

/-- A plan that is made and passes a test. -/
def passing {made : Except Failure Plan} {test : Plan → Bool} (h : passes made test = true) :
    { plan : Plan // made = .ok plan ∧ test plan = true } :=
  match made, h with
  | .ok plan, passed => ⟨plan, rfl, passed⟩

theorem exists_of_passes {made : Except Failure Plan} {test : Plan → Bool}
    (h : passes made test = true) : ∃ plan, made = .ok plan ∧ test plan = true :=
  ⟨_, (passing h).property⟩

/-- Whether all artifacts of a plan can be made. -/
def makes (plan : Plan) : Bool :=
  plan.jobs.all (·.artifact.isOk) &&
    plan.directoriesToIndex.all fun indexed => (plan.index indexed).isOk

theorem isOk_index_eq (plan : Plan) (indexed : IndexedDirectory) :
    (plan.index indexed).isOk =
      (ModuleIndex.file (plan.indexDoc indexed.directory) indexed.modules >>= File.render).isOk := by
  rw [index, indexDoc]
  cases plan.isCrateRoot indexed.directory with
  | true => exact isOk_bind_pure
  | false => exact isOk_bind_pure

/-- What is known to be code need not be read again, and of an index the file is all that counts. -/
theorem makes_eq : makes = fun plan =>
    plan.jobs.all (fun job => job.isKnown || job.artifact.isOk) &&
      plan.directoriesToIndex.all fun indexed =>
        (ModuleIndex.file (plan.indexDoc indexed.directory) indexed.modules >>=
          File.render).isOk := by
  funext plan
  simp only [makes, ← Job.isOk_artifact_eq, isOk_index_eq]

theorem exists_of_makes {plan : Plan} (h : plan.makes = true) :
    ∃ artifacts, plan.artifacts = .ok artifacts := by
  rw [makes, Bool.and_eq_true, List.all_eq_true, List.all_eq_true] at h
  exact succeeds_artifacts_iff_each.2 ⟨fun job member => Outcome.exists_of_isOk (h.1 job member),
    succeeds_indexes_iff.2 fun _ indexed among => Outcome.exists_of_isOk (h.2 indexed among)⟩

/-- What becomes of the files of the jobs, if a plan is made. -/
def jobArtifacts? (request : Request) : Option (List (Except Failure Artifact)) :=
  match ofRequest request with
  | .ok plan => some (plan.jobs.map fun job => job.artifact)
  | .error _ => none

theorem exists_of_jobArtifacts? {request : Request} {results : List (Except Failure Artifact)}
    (h : jobArtifacts? request = some results) :
    ∃ plan, ofRequest request = .ok plan ∧ plan.jobs.map Job.artifact = results := by
  rw [jobArtifacts?] at h
  split at h
  · next plan made =>
    cases h
    exact ⟨plan, made, rfl⟩
  · cases h

/-- The plan for one record, with which all artifacts are made. -/
def singlePlan : { plan : Plan //
    ofRequest (declaring [single "A" (TypeRef.named "f64")] []) = .ok plan ∧ plan.makes = true } :=
  passing <| by
    -- merge sort does not reduce, so the sets are sorted by insertion before the plan is computed
    simp only [makes_eq, ofRequest, allJobs, directoriesToIndex, indexedDirectories,
      managedDirectories, ModuleIndex.file, Ordered.sortedTexts, Ordered.sortedSet_eq_foldr]
    decide +kernel

theorem executable_single :
    ∃ plan, ofRequest (declaring [single "A" (TypeRef.named "f64")] []) = .ok plan ∧
      Succeeds plan.artifacts ∧ plan.Executable := by
  obtain ⟨plan, made, makes_⟩ := singlePlan
  have succeeds : Succeeds plan.artifacts := exists_of_makes makes_
  exact ⟨plan, made, succeeds, (succeeds_artifacts_iff made).1 succeeds⟩

/-- A plan is made for the request, but a job of it fails in this way. -/
def FailsWith (request : Request) (failure : Failure) : Prop :=
  ∃ plan, ofRequest request = .ok plan ∧ ¬Succeeds plan.artifacts ∧
    ∃ job ∈ plan.jobs, job.artifact = .error failure

theorem failsWith_of_last {request : Request} {failure : Failure}
    (h : (jobArtifacts? request).bind List.getLast? = some (.error failure)) :
    FailsWith request failure := by
  obtain ⟨results, found, last⟩ := Option.bind_eq_some_iff.1 h
  obtain ⟨plan, made, rfl⟩ := exists_of_jobArtifacts? found
  obtain ⟨job, member, fails⟩ := List.mem_map.1 (List.mem_of_getLast? last)
  refine ⟨plan, made, fun succeeds => ?_, job, member, fails⟩
  obtain ⟨artifact, works⟩ := (succeeds_artifacts_iff_each.1 succeeds).1 job member
  cases fails.symm.trans works

/-- Plans for checked requests fail in every other way: a name cannot be continued, the path to a
serializer is none, the value of a base field is looked up under its name in code, and a value does
not stand in the code as it was read. -/
theorem not_executable :
    FailsWith (declaring [single " A" (TypeRef.named "f64")] []) (.illegalName " ASetterOps") ∧
    FailsWith (declaring [(single "A" ((TypeRef.named "f64").withSerialization
      (.through (some "1")))).withSerialization] []) (.invalidText "A" "path" "1") ∧
    FailsWith (declaring [] [based "x " "1.0" "2.0"]) (.missingBaseValue "S" "A" "x") ∧
    FailsWith (declaring [] [based "x" "{ 1.0 } + 2.0" "2.0"]) .invalidCode := by
  refine ⟨failsWith_of_last ?_, failsWith_of_last ?_, failsWith_of_last ?_,
    failsWith_of_last ?_⟩ <;>
    simp only [jobArtifacts?, ofRequest, allJobs, familyJobs, selected, Selection.simplify,
      Job.artifact, Job.code, Optics.Lens.file, Optics.Prism.file, Optics.productImports,
      Optics.typeImports, Ordered.sortedTexts, Ordered.sortedSet_eq_foldr] <;>
    decide +kernel

end Plan

end Slotwise
