import Slotwise.CommandLine
import Slotwise.Proofs.Execution
import Slotwise.Proofs.Placement
/-!
# Runs that fail before they write

A run reads its request, makes the plan and generates every artifact before its first step on disk. So
a failure of any of these leaves the file tree as it was, whichever job or module index it comes from,
and a dry run always does.

Main statement: what a command line leaves behind if something fails before the first step on disk, and
what a dry run leaves behind and shows (`outcome_atomic`).
-/

namespace Slotwise.CommandLine

open Plan

variable {options : Arguments} {read : FilePath → Except DiskError String} {cause : Failure}

/-- The plan that the options lead to. -/
def Arguments.plan (options : Arguments) (read : FilePath → Except DiskError String) :
    Except Failure Plan := do
  let request ← options.request read
  Plan.ofRequest (options.adjusted request)

theorem Arguments.run_eq :
    options.run read = do
      let plan ← options.plan read
      let artifacts ← plan.artifacts
      return options.runOf plan artifacts := by
  rw [run, plan, bind_assoc]

theorem Arguments.run_eq_ok_iff {run : Run} :
    options.run read = .ok run ↔ ∃ plan artifacts, options.plan read = .ok plan ∧
      plan.artifacts = .ok artifacts ∧ options.runOf plan artifacts = run := by
  simp only [run_eq, Outcome.bind_eq_ok_iff, Outcome.pure_eq_ok_iff, exists_and_left]

/-- A failure that comes before the first step on disk. -/
inductive Arguments.Fails (options : Arguments) (read : FilePath → Except DiskError String) :
    Failure → Prop where
  /-- There is no request. -/
  | loading {cause : Failure} (h : options.request read = .error cause) : Fails options read cause
  /-- No plan is made for the request. -/
  | planning {cause : Failure} {request : Request} (loaded : options.request read = .ok request)
      (h : Plan.ofRequest (options.adjusted request) = .error cause) : Fails options read cause
  /-- The file of a job cannot be generated. -/
  | job {cause : Failure} {plan : Plan} {job : Job} (planned : options.plan read = .ok plan)
      (member : job ∈ plan.jobs) (h : job.artifact = .error cause) : Fails options read cause
  /-- A module index that is asked for cannot be generated. -/
  | index {cause : Failure} {plan : Plan} {indexed : IndexedDirectory}
      (planned : options.plan read = .ok plan) (asked : plan.request.output.moduleIndex = true)
      (member : indexed ∈ plan.directoriesToIndex) (h : plan.index indexed = .error cause) :
      Fails options read cause

/-- A run that cannot be generated fails in one of these ways. -/
theorem Arguments.fails_of_run (h : options.run read = .error cause) :
    options.Fails read cause := by
  rw [run_eq] at h
  obtain unplanned | ⟨plan, planned, h⟩ := Outcome.bind_eq_error_iff.1 h
  · obtain unloaded | ⟨request, loaded, unplanned⟩ := Outcome.bind_eq_error_iff.1 unplanned
    · exact .loading unloaded
    · exact .planning loaded unplanned
  · obtain unmade | ⟨artifacts, -, h⟩ := Outcome.bind_eq_error_iff.1 h
    · obtain noFiles | ⟨files, -, h⟩ := Outcome.bind_eq_error_iff.1 unmade
      · obtain ⟨job, member, fails⟩ := Outcome.exists_of_mapM_eq_error noFiles
        exact .job planned member fails
      · obtain noIndexes | ⟨indexes, -, h⟩ := Outcome.bind_eq_error_iff.1 h
        · rw [Plan.indexes] at noIndexes
          split at noIndexes
          · next asked =>
            obtain ⟨indexed, member, fails⟩ := Outcome.exists_of_mapM_eq_error noIndexes
            exact .index planned asked member fails
          · cases noIndexes
        · cases h
    · cases h

/-- A run that can be generated does not fail in any of them. -/
theorem Arguments.not_fails_of_run {run : Run} (h : options.run read = .ok run) :
    ¬options.Fails read cause := by
  obtain ⟨plan, artifacts, planned, made, -⟩ := run_eq_ok_iff.1 h
  obtain ⟨files, indexes⟩ := succeeds_artifacts_iff_each.1 ⟨artifacts, made⟩
  obtain ⟨request, loaded, planned'⟩ := Outcome.bind_eq_ok_iff.1 planned
  intro fails
  cases fails with
  | loading h => cases loaded.symm.trans h
  | planning found h =>
    cases loaded.symm.trans found
    cases planned'.symm.trans h
  | job found member h =>
    cases planned.symm.trans found
    obtain ⟨file, works⟩ := files _ member
    cases works.symm.trans h
  | index found asked member h =>
    cases planned.symm.trans found
    obtain ⟨index, works⟩ := succeeds_indexes_iff.1 indexes asked _ member
    cases works.symm.trans h

/-- What a run leaves behind that cannot be generated. -/
theorem outcome_of_fails {arguments : List String} {tree : FileTree}
    (asked : invocation? arguments = some (.run options)) (fails : options.Fails tree.read cause) :
    ∃ cause, options.Fails tree.read cause ∧
      outcome arguments tree = ⟨.failure cause, "", [], tree⟩ := by
  cases generated : options.run tree.read with
  | ok run => exact absurd fails (Arguments.not_fails_of_run generated)
  | error cause =>
    refine ⟨cause, Arguments.fails_of_run generated, ?_⟩
    simp only [outcome, asked, generated]

/-- The blocks that a dry run shows, one for each artifact and then one for the manifest. -/
def Arguments.blocks (options : Arguments) (plan : Plan) (artifacts : List Artifact) : List String :=
  artifacts.map (fun artifact => shownFile artifact.path artifact.content) ++
    options.package.toList.map fun package =>
      shownFile (Manifest.path options.root) (Manifest.text package plan.request.serializes)

/-- The steps of a run that is not dry, the manifest's last. -/
def Arguments.steps (options : Arguments) (plan : Plan) (artifacts : List Artifact) :
    List DiskStep :=
  DiskStep.ofArtifacts options.root plan.managedDirectories artifacts ++
    options.package.toList.map fun package =>
      Manifest.writing options.root package plan.request.serializes

/-- What a dry run leaves behind that can be generated. -/
theorem outcome_of_dryRun {arguments : List String} {tree : FileTree} {plan : Plan}
    {artifacts : List Artifact} (asked : invocation? arguments = some (.run options))
    (dry : options.dryRun = true)
    (generated : options.run tree.read = .ok (options.runOf plan artifacts)) :
    outcome arguments tree =
      ⟨.success, String.join (options.blocks plan artifacts), summary true artifacts, tree⟩ := by
  rw [Arguments.runOf, if_pos dry] at generated
  simp only [outcome, asked, generated, DiskStep.runAll, dry]
  rfl

/-- What a run leaves behind that takes its steps. -/
theorem outcome_of_steps {arguments : List String} {tree last : FileTree} {plan : Plan}
    {artifacts : List Artifact} (asked : invocation? arguments = some (.run options))
    (wet : options.dryRun = false)
    (generated : options.run tree.read = .ok (options.runOf plan artifacts)) :
    (DiskStep.runAll (options.steps plan artifacts) tree = .ok () last →
      outcome arguments tree = ⟨.success, "", summary false artifacts, last⟩) ∧
    ∀ cause, DiskStep.runAll (options.steps plan artifacts) tree = .error cause last →
      outcome arguments tree = ⟨.failure cause, "", [], last⟩ := by
  rw [Arguments.runOf, if_neg (by rw [wet]; exact Bool.false_ne_true)] at generated
  rw [Arguments.steps]
  constructor
  · intro written
    simp only [outcome, asked, generated, written, wet]
  · intro cause failed
    simp only [outcome, asked, generated, failed]

/-- A run changes nothing unless the whole of it can be generated: its request, its plan, the file of
every job and every module index. A dry run changes nothing at all, and shows the artifacts in the order
of their paths. Any other run takes its steps when everything is generated. -/
theorem outcome_atomic (arguments : List String) (tree : FileTree) :
    ((∀ options, invocation? arguments ≠ some (.run options)) →
      (outcome arguments tree).tree = tree) ∧
    ∀ options, invocation? arguments = some (.run options) →
      ((∃ cause, options.Fails tree.read cause) → ∃ cause, options.Fails tree.read cause ∧
        outcome arguments tree = ⟨.failure cause, "", [], tree⟩) ∧
      (options.dryRun = true → (outcome arguments tree).tree = tree) ∧
      ((¬∃ cause, options.Fails tree.read cause) → ∃ plan artifacts,
        options.plan tree.read = .ok plan ∧ plan.artifacts = .ok artifacts ∧
        artifacts.Pairwise (fun a b => (a.path.compare b.path).isLE = true) ∧
        (options.dryRun = true → outcome arguments tree =
          ⟨.success, String.join (options.blocks plan artifacts), summary true artifacts, tree⟩) ∧
        (options.dryRun = false → ∀ last,
          (DiskStep.runAll (options.steps plan artifacts) tree = .ok () last →
            outcome arguments tree = ⟨.success, "", summary false artifacts, last⟩) ∧
          ∀ cause, DiskStep.runAll (options.steps plan artifacts) tree = .error cause last →
            outcome arguments tree = ⟨.failure cause, "", [], last⟩)) := by
  refine ⟨fun norun => ?_, fun options asked =>
    ⟨?_, fun dry => ?_, fun works => ?_⟩⟩
  · cases invocation : invocation? arguments with
    | none => simp only [outcome, invocation]
    | some invocation' =>
      cases invocation' with
      | run options => exact absurd invocation (norun options)
      | help => simp only [outcome, invocation]
      | version => simp only [outcome, invocation]
  · rintro ⟨cause, fails⟩
    exact outcome_of_fails asked fails
  · cases generated : options.run tree.read with
    | error cause =>
      obtain ⟨cause', -, left⟩ := outcome_of_fails asked (Arguments.fails_of_run generated)
      rw [left]
    | ok run =>
      obtain ⟨plan, artifacts, -, -, rfl⟩ := Arguments.run_eq_ok_iff.1 generated
      rw [outcome_of_dryRun asked dry generated]
  · cases generated : options.run tree.read with
    | error cause => exact absurd ⟨cause, Arguments.fails_of_run generated⟩ works
    | ok run =>
      obtain ⟨plan, artifacts, planned, made, rfl⟩ := Arguments.run_eq_ok_iff.1 generated
      obtain ⟨-, -, -, -, -, sorted⟩ := exists_files_of_artifacts made
      exact ⟨plan, artifacts, planned, made, sorted,
        fun dry => outcome_of_dryRun asked dry generated,
        fun wet last => outcome_of_steps asked wet generated⟩

/-! ## Runs for two groups of keys -/

/-- A tree with a configuration for two groups of keys, the second with this prefix, and with keys that
were generated before. -/
def configured (stem : String) : FileTree :=
  ⟨[(["c.toml"], .file ("[[keys]]\nprefix = \"Old\"\ncount = 1\n\n[[keys]]\nprefix = \"" ++ stem ++
      "\"\ncount = 1\n")),
    (["src"], .directory), (["src", "keys"], .directory),
    (["src", "keys", "old_keys.rs"], .file "// old")]⟩

/-- The prefix of the last group makes no name, so the run fails and clears nothing; and a dry run for a
prefix that makes one shows what it would write. -/
theorem outcome_atomic_keys :
    (∃ cause, outcome ["-c", "c.toml"] (configured " New") =
      ⟨.failure cause, "", [], configured " New"⟩) ∧
    ∃ (plan : Plan) (artifacts : List Artifact), plan.managedDirectories ≠ [] ∧
      plan.artifacts = .ok artifacts ∧
      artifacts.Pairwise (fun a b => (a.path.compare b.path).isLE = true) ∧
      outcome ["-c", "c.toml", "--dry-run", "--cargo-toml", "keys"] (configured "New") =
        ⟨.success, String.join (Arguments.blocks { package := some "keys" } plan artifacts),
          summary true artifacts, configured "New"⟩ := by
  constructor
  · have asked : invocation? ["-c", "c.toml"] = some (.run { config := some "c.toml" }) := by
      decide +kernel
    have works : passes (({ config := some "c.toml" } : Arguments).plan (configured " New").read)
        (fun plan => plan.jobs.any fun job => !(job.isKnown || job.artifact.isOk)) = true := by
      simp only [Arguments.plan, ofRequest, allJobs, Ordered.sortedSet_eq_foldr]
      decide +kernel
    obtain ⟨plan, planned, passed⟩ := exists_of_passes works
    obtain ⟨job, member, unmade⟩ := List.any_eq_true.1 passed
    obtain ⟨cause, fails⟩ : ∃ cause, job.artifact = .error cause := by
      rw [← Job.isOk_artifact_eq] at unmade
      cases made : job.artifact with
      | ok artifact => simp [made, Except.isOk, Except.toBool] at unmade
      | error cause => exact ⟨cause, rfl⟩
    obtain ⟨cause, -, left⟩ := ((outcome_atomic _ _).2 _ asked).1 ⟨cause, .job planned member fails⟩
    exact ⟨cause, left⟩
  · have asked : invocation? ["-c", "c.toml", "--dry-run", "--cargo-toml", "keys"] =
        some (.run { config := some "c.toml", dryRun := true, package := some "keys" }) := by
      decide +kernel
    have works : passes
        (({ config := some "c.toml", dryRun := true, package := some "keys" } : Arguments).plan
          (configured "New").read)
        (fun plan => plan.makes && plan.managedDirectories ≠ []) = true := by
      simp only [Arguments.plan, makes_eq, ofRequest, allJobs, directoriesToIndex,
        indexedDirectories, managedDirectories, ModuleIndex.file, Ordered.sortedTexts,
        Ordered.sortedSet_eq_foldr]
      decide +kernel
    obtain ⟨plan, planned, passed⟩ := exists_of_passes works
    rw [Bool.and_eq_true, decide_eq_true_iff] at passed
    obtain ⟨artifacts, made⟩ := exists_of_makes passed.1
    have generated := Arguments.run_eq_ok_iff.2 ⟨plan, artifacts, planned, made, rfl⟩
    obtain ⟨-, -, works⟩ := (outcome_atomic _ _).2 _ asked
    obtain ⟨plan', artifacts', planned', made', sorted, shown, -⟩ :=
      works (not_exists.2 fun _ => Arguments.not_fails_of_run generated)
    cases planned.symm.trans planned'
    exact ⟨plan, artifacts', passed.2, made', sorted, shown rfl⟩

end Slotwise.CommandLine
