import Slotwise.Proofs.Execution
import Slotwise.Proofs.Placement
/-!
# Regeneration

A batch is written over what an earlier one left. Only the directories that the later plan owns are
cleared, so the earlier batch is gone from there and stays everywhere else.

Main statements: what two batches leave, name by name (`regenerated`), and a file of the first one
that the second plan does not know of (`not_regenerated`).
-/

namespace Slotwise.Plan

open Disk DiskStep Naming

variable {request : Request} {plan earlier : Plan} {artifacts earlierArtifacts : List Artifact}
  {root : FilePath}

/-- The directories below a root that writing a plan clears. -/
def clearedBelow (root : FilePath) (plan : Plan) : List FilePath :=
  plan.managedDirectories.map (below root)

/-- The files below a root that writing artifacts puts there. -/
def filesBelow (root : FilePath) (artifacts : List Artifact) : List (FilePath × String) :=
  artifacts.map fun artifact => (below root artifact.path, artifact.content)

/-- The paths below a root that writing a plan with its artifacts goes to. -/
def pathsBelow (root : FilePath) (plan : Plan) (artifacts : List Artifact) : List FilePath :=
  clearedBelow root plan ++ (filesBelow root artifacts).map (·.1)

/-- Writes a plan with its artifacts below a root. -/
def writeBelow (root : FilePath) (plan : Plan) (artifacts : List Artifact) : Disk Unit :=
  runAll (ofArtifacts root plan.managedDirectories artifacts)

theorem ofArtifacts_eq (root : FilePath) (plan : Plan) (artifacts : List Artifact) :
    ofArtifacts root plan.managedDirectories artifacts =
      (clearedBelow root plan).map DiskStep.clear ++
        (filesBelow root artifacts).map fun (path, content) => DiskStep.write path content := by
  simp [ofArtifacts, replacing, clearing, clearedBelow, filesBelow, Function.comp_def]

theorem regular_of_cleared (planned : Planned request plan)
    (downward : ∀ path ∈ clearedBelow root plan, .up ∉ path.components) :
    ∀ path ∈ clearedBelow root plan, Regular path := by
  intro path member
  obtain ⟨directory, managed, rfl⟩ := List.mem_map.1 member
  obtain ⟨kind, folder, given, suffix⟩ := planned.exists_folder managed
  obtain ⟨front, name, ends, -⟩ :=
    exists_ends_of_folder given (suffix.trans (FilePath.suffix_push root directory.text))
  exact ⟨⟨front, name, ends⟩, downward _ member⟩

theorem sources_of_files (made : plan.artifacts = .ok artifacts) :
    ∀ path ∈ (filesBelow root artifacts).map (·.1), sourceSuffix <:+ path.text.toList := by
  intro path member
  simp only [filesBelow, List.map_map, List.mem_map, Function.comp_apply] at member
  obtain ⟨artifact, among, rfl⟩ := member
  exact (suffix_path made among).trans (FilePath.suffix_push root artifact.path.text)

theorem regular_of_files (made : plan.artifacts = .ok artifacts)
    (downward : ∀ path ∈ (filesBelow root artifacts).map (·.1), .up ∉ path.components) :
    ∀ path ∈ (filesBelow root artifacts).map (·.1), Regular path := by
  intro path member
  obtain ⟨front, name, ends, -⟩ := exists_ends_of_source (sources_of_files made path member)
  exact ⟨⟨front, name, ends⟩, downward _ member⟩

/-- What a batch that was written leaves is tidy. -/
theorem tidy_of_written (made : plan.artifacts = .ok artifacts) {left : FileTree}
    (h : writeBelow root plan artifacts FileTree.empty = .ok () left) : Tidy left := by
  refine tidy_of_runAll (fun path content member => ?_) tidy_empty h
  rw [ofArtifacts_eq, List.mem_append] at member
  obtain cleared | written := member
  · simp at cleared
  · obtain ⟨⟨_, _⟩, among, same⟩ := List.mem_map.1 written
    cases same
    exact sources_of_files made path (List.mem_map.2 ⟨_, among, rfl⟩)

/-- What a batch leaves over a tidy tree. -/
theorem get?_of_written (planned : Planned request plan) (made : plan.artifacts = .ok artifacts)
    (downward : ∀ path ∈ pathsBelow root plan artifacts, .up ∉ path.components)
    {tree last : FileTree} (tidy : Tidy tree)
    (h : writeBelow root plan artifacts tree = .ok () last) (names : List String) :
    last.get? names = (written (filesBelow root artifacts) names).or
      (if Within (clearedBelow root plan) names then none else tree.get? names) := by
  rw [writeBelow, ofArtifacts_eq] at h
  exact get?_of_runAll
    (regular_of_cleared planned fun path member => downward path (List.mem_append_left _ member))
    (regular_of_files made fun path member => downward path (List.mem_append_right _ member))
    (sources_of_files made) tidy h names

theorem exists_written (planned : Planned request plan) (made : plan.artifacts = .ok artifacts)
    (downward : ∀ path ∈ pathsBelow root plan artifacts, .up ∉ path.components)
    (apart : Apart ((filesBelow root artifacts).map (·.1))) {tree : FileTree} (tidy : Tidy tree)
    (room : Room tree (clearedBelow root plan) (filesBelow root artifacts)) :
    ∃ last, writeBelow root plan artifacts tree = .ok () last := by
  rw [writeBelow, ofArtifacts_eq]
  exact exists_run
    (regular_of_cleared planned fun path member => downward path (List.mem_append_left _ member))
    (regular_of_files made fun path member => downward path (List.mem_append_right _ member))
    apart tidy room

/-! ## Requests for one key -/

/-- The request for one key under a source root. -/
def keyBelow (stem sourceRoot : String) : Request :=
  { Request.empty with
    output := ⟨sourceRoot, "", false, false⟩
    keys := [KeyGroup.new stem 1] }

/-- Its only job. -/
def keyJob (stem sourceRoot : String) : Job :=
  ⟨.keys 0 (KeyGroup.new stem 1), ⟨sourceRoot, "", "keys"⟩⟩

/-- Its plan. -/
def keyPlan (stem sourceRoot : String) : Plan :=
  ⟨keyBelow stem sourceRoot, [keyJob stem sourceRoot]⟩

/-- The text of an artifact, or nothing where there is none. -/
def contentOf : Except Failure Artifact → String
  | .ok artifact => artifact.content
  | .error _ => ""

/-- The text of its file, which does not depend on the source root. -/
def keyContent (stem : String) : String :=
  contentOf (keyJob stem "").artifact

/-- Its directory. -/
def keyDirectory (sourceRoot : String) : FilePath :=
  FilePath.push ⟨sourceRoot⟩ "keys"

/-- Its artifact. -/
def keyArtifact (stem sourceRoot : String) : Artifact :=
  ⟨.keys, stem, (keyDirectory sourceRoot).push (Naming.keysModule stem ++ ".rs"), keyContent stem⟩

/-- The package of keys in a domain without a name, which passes its check. -/
def keysPackage : { package : String // derivePackage .keys "" = package ∧
    ModulePath.segments "" ++ ModulePath.segments package = [package] ∧
    (Check.location "output" ⟨none, some "", none⟩).isOk = true } :=
  ⟨"keys", by decide +kernel⟩

theorem keyJobs_keyBelow (stem sourceRoot : String) :
    keyJobs (keyBelow stem sourceRoot) = .ok [keyJob stem sourceRoot] := by
  have package : derivePackage .keys "" = "keys" := keysPackage.property.1
  have place : familyPlace (keyBelow stem sourceRoot) .keys Location.anywhere =
      ⟨sourceRoot, "", "keys"⟩ := by
    rw [familyPlace, sibling, ← package]
    rfl
  show keyJobsAfter _ [] [(KeyGroup.new stem 1, 0)] = _
  rw [keyJobsAfter]
  simp only [List.find?_nil, keyJobsAfter, KeyGroup.new]
  rw [place]
  rfl

/-- The keys that are generated here. They pass the check, and their files are code. -/
def stems : { stems : List String // ∀ stem ∈ stems,
    (Check.keyGroup (KeyGroup.new stem 1)).isOk = true ∧ (keyJob stem "").isKnown = true } :=
  ⟨["Old", "New"], by decide +kernel⟩

theorem ofRequest_keyBelow {stem : String} (known : stem ∈ stems.val) (sourceRoot : String) :
    ofRequest (keyBelow stem sourceRoot) = .ok (keyPlan stem sourceRoot) := by
  obtain ⟨_, checked⟩ := Outcome.exists_of_isOk (stems.property stem known).1
  have single : Ordered.sortedSet Job.compare [keyJob stem sourceRoot] =
      [keyJob stem sourceRoot] := by
    simp [Ordered.sortedSet, Ordered.dropRepeats, Ordered.dropRepeats.dropRepeatsAfter]
  have jobs : allJobs (keyBelow stem sourceRoot) = .ok [keyJob stem sourceRoot] := by
    rw [allJobs, keyJobs_keyBelow]
    exact congrArg Except.ok single
  have domain : Check.location "output" ⟨none, some "", none⟩ = .ok () := by
    obtain ⟨_, passed⟩ := Outcome.exists_of_isOk keysPackage.property.2.2
    exact passed
  have keys : (keyBelow stem sourceRoot).keys.forM Check.keyGroup = .ok () :=
    Outcome.forM_eq_ok_iff.2 fun group member => List.mem_singleton.1 member ▸ checked
  refine Outcome.bind_eq_ok_iff.2 ⟨(), ?_, Outcome.bind_eq_ok_iff.2 ⟨_, jobs, rfl⟩⟩
  rw [Check.request]
  refine Outcome.bind_eq_ok_iff.2 ⟨(), rfl, Outcome.bind_eq_ok_iff.2 ⟨(), rfl,
    Outcome.bind_eq_ok_iff.2 ⟨(), domain, Outcome.bind_eq_ok_iff.2 ⟨(), rfl,
      Outcome.bind_eq_ok_iff.2 ⟨(), rfl, keys⟩⟩⟩⟩⟩

theorem directory_keyJob (stem sourceRoot : String) :
    (keyJob stem sourceRoot).place.directory = keyDirectory sourceRoot := by
  have segments : ModulePath.segments "" ++ ModulePath.segments "keys" = ["keys"] :=
    keysPackage.property.2.1
  show (ModulePath.segments "" ++ ModulePath.segments "keys").foldl FilePath.push ⟨sourceRoot⟩ = _
  rw [segments]
  rfl

theorem managedDirectories_keyPlan (stem sourceRoot : String) :
    (keyPlan stem sourceRoot).managedDirectories = [keyDirectory sourceRoot] := by
  show Ordered.sortedSet FilePath.compare [(keyJob stem sourceRoot).place.directory] = _
  rw [directory_keyJob]
  simp [Ordered.sortedSet, Ordered.dropRepeats, Ordered.dropRepeats.dropRepeatsAfter]

theorem artifacts_keyPlan {stem : String} (known : stem ∈ stems.val) (sourceRoot : String) :
    (keyPlan stem sourceRoot).artifacts = .ok [keyArtifact stem sourceRoot] := by
  obtain ⟨artifact, made⟩ := Job.succeeds_artifact_of_isKnown (stems.property stem known).2
  have content : keyContent stem = artifact.content := congrArg contentOf made
  obtain ⟨code, coded, rendered⟩ := Outcome.bind_eq_ok_iff.1 made
  obtain ⟨text, rendered, same⟩ := Outcome.bind_eq_ok_iff.1 rendered
  have same := Outcome.pure_eq_ok_iff.1 same
  have code_ : (keyJob stem sourceRoot).code = (keyJob stem "").code :=
    Keys.file_congr rfl rfl rfl rfl
  have job : (keyJob stem sourceRoot).artifact = .ok (keyArtifact stem sourceRoot) := by
    refine Outcome.bind_eq_ok_iff.2 ⟨code, code_.trans coded,
      Outcome.bind_eq_ok_iff.2 ⟨text, rendered, Outcome.pure_eq_ok_iff.2 ?_⟩⟩
    rw [keyArtifact, content, ← same, Job.path, directory_keyJob]
    rfl
  refine Outcome.bind_eq_ok_iff.2 ⟨[keyArtifact stem sourceRoot], ?_,
    Outcome.bind_eq_ok_iff.2 ⟨[], rfl,
      Outcome.pure_eq_ok_iff.2 (by rw [List.append_nil, List.mergeSort_singleton])⟩⟩
  exact Outcome.mapM_eq_ok_iff.2 (.cons job .nil)

/-- The steps that write the plan where it is. -/
def keySteps (stem sourceRoot : String) : List DiskStep :=
  [.clear (below ⟨""⟩ (keyDirectory sourceRoot)),
    .write (below ⟨""⟩ (keyArtifact stem sourceRoot).path) (keyContent stem)]

theorem writeBelow_keyPlan (stem sourceRoot : String) :
    writeBelow ⟨""⟩ (keyPlan stem sourceRoot) [keyArtifact stem sourceRoot] =
      runAll (keySteps stem sourceRoot) := by
  rw [writeBelow, ofArtifacts_eq, clearedBelow, managedDirectories_keyPlan]
  rfl

/-- A run that succeeds with a tree that passes a test. -/
def leaves (run : Disk Unit) (tree : FileTree) (test : FileTree → Bool) : Bool :=
  match run tree with
  | .ok _ last => test last
  | .error _ _ => false

theorem exists_of_leaves {run : Disk Unit} {tree : FileTree} {test : FileTree → Bool}
    (h : leaves run tree test = true) : ∃ last, run tree = .ok () last ∧ test last = true := by
  rw [leaves] at h
  split at h
  · next last result => exact ⟨last, result, h⟩
  · cases h

/-- What steps leave on their own and what they leave over other ones pass a test. -/
def leavesBoth (earlier later : List DiskStep)
    (test : FileTree → FileTree → FileTree → Bool) : Bool :=
  leaves (runAll earlier) FileTree.empty fun left =>
    leaves (runAll later) FileTree.empty fun alone =>
      leaves (runAll later) left fun after => test left alone after

theorem exists_of_leavesBoth {earlier later : List DiskStep}
    {test : FileTree → FileTree → FileTree → Bool} (h : leavesBoth earlier later test = true) :
    ∃ left alone after, runAll earlier FileTree.empty = .ok () left ∧
      runAll later FileTree.empty = .ok () alone ∧ runAll later left = .ok () after ∧
      test left alone after = true := by
  obtain ⟨left, first, h⟩ := exists_of_leaves h
  obtain ⟨alone, second, h⟩ := exists_of_leaves h
  obtain ⟨after, third, h⟩ := exists_of_leaves h
  exact ⟨left, alone, after, first, second, third, h⟩

theorem pathsBelow_keyPlan (stem sourceRoot : String) :
    pathsBelow ⟨""⟩ (keyPlan stem sourceRoot) [keyArtifact stem sourceRoot] =
      [below ⟨""⟩ (keyDirectory sourceRoot), below ⟨""⟩ (keyArtifact stem sourceRoot).path] := by
  simp [pathsBelow, clearedBelow, filesBelow, managedDirectories_keyPlan]

/-- Generating what a request asks for leads from one tree to another. -/
def Generates (request : Request) (tree last : FileTree) : Prop :=
  ∃ plan artifacts, ofRequest request = .ok plan ∧ plan.artifacts = .ok artifacts ∧
    writeBelow ⟨""⟩ plan artifacts tree = .ok () last

theorem generates_keyBelow_iff {stem : String} (known : stem ∈ stems.val) {sourceRoot : String}
    {tree last : FileTree} :
    Generates (keyBelow stem sourceRoot) tree last ↔
      runAll (keySteps stem sourceRoot) tree = .ok () last := by
  have planned := ofRequest_keyBelow known sourceRoot
  have made := artifacts_keyPlan known sourceRoot
  constructor
  · rintro ⟨plan, artifacts, planned', made', written⟩
    cases planned.symm.trans planned'
    cases made.symm.trans made'
    rwa [writeBelow_keyPlan] at written
  · intro written
    exact ⟨_, _, planned, made, by rwa [writeBelow_keyPlan]⟩

/-! ## Regeneration -/

/-- Writing a plan over what an earlier one left. It succeeds where files and directories do not get
in each other's way, and then leaves exactly its own entries in the directories it owns, and around
them its own entries over those that the earlier one left. So both ways lead to one tree just if the
plan has everything itself that the earlier one left outside of these directories. -/
theorem regenerated {left : FileTree} (earlierMade : earlier.artifacts = .ok earlierArtifacts)
    (earlierWritten : writeBelow root earlier earlierArtifacts FileTree.empty = .ok () left)
    (planned : ofRequest request = .ok plan) (made : plan.artifacts = .ok artifacts)
    (downward : ∀ path ∈ pathsBelow root plan artifacts, .up ∉ path.components) :
    (Apart ((filesBelow root artifacts).map (·.1)) →
      (∃ alone, writeBelow root plan artifacts FileTree.empty = .ok () alone) ∧
      (Room left (clearedBelow root plan) (filesBelow root artifacts) →
        ∃ after, writeBelow root plan artifacts left = .ok () after)) ∧
    ∀ alone after, writeBelow root plan artifacts FileTree.empty = .ok () alone →
      writeBelow root plan artifacts left = .ok () after →
      (∀ names, Within (clearedBelow root plan) names → after.get? names = alone.get? names) ∧
      (∀ names, ¬Within (clearedBelow root plan) names →
        after.get? names = (alone.get? names).or (left.get? names)) ∧
      (∀ names text, Within (clearedBelow root plan) names →
        after.get? names = some (.file text) →
        ∃ artifact ∈ artifacts, (below root artifact.path).names = names ∧
          artifact.content = text) ∧
      ((∀ names, after.get? names = alone.get? names) ↔
        ∀ names, ¬Within (clearedBelow root plan) names → left.get? names ≠ none →
          alone.get? names ≠ none) := by
  have planned := planned_of_ofRequest planned
  have tidy := tidy_of_written earlierMade earlierWritten
  refine ⟨fun apart => ⟨?_, fun room => exists_written planned made downward apart tidy room⟩,
    fun alone after writtenAlone writtenAfter => ?_⟩
  · refine exists_written planned made downward apart tidy_empty (room_empty fun path member => ?_)
    exact (regular_of_files made (fun path member =>
      downward path (List.mem_append_right _ member)) path member).named
  have getAlone := get?_of_written planned made downward tidy_empty writtenAlone
  have getAfter := get?_of_written planned made downward tidy writtenAfter
  have inside : ∀ names, Within (clearedBelow root plan) names →
      after.get? names = alone.get? names := by
    intro names within
    rw [getAlone, getAfter, if_pos within, if_pos within]
  have outside : ∀ names, ¬Within (clearedBelow root plan) names →
      after.get? names = (alone.get? names).or (left.get? names) := by
    intro names apart
    rw [getAlone, getAfter, if_neg apart, if_neg apart, Option.or_assoc]
    congr 1
    by_cases top : names = []
    · rw [top, FileTree.get?_nil, FileTree.get?_nil, Option.some_or]
    · rw [FileTree.get?_empty top, Option.none_or]
  refine ⟨inside, outside, fun names text within present => ?_, fun same names apart there => ?_,
    fun covered names => ?_⟩
  · rw [getAfter, if_pos within, Option.or_none] at present
    obtain ⟨path, member, named⟩ := mem_of_written present
    obtain ⟨artifact, among, same⟩ := List.mem_map.1 member
    cases same
    exact ⟨artifact, among, named, rfl⟩
  · intro absent
    have kept := same names
    rw [outside names apart, absent, Option.none_or] at kept
    exact there kept
  · by_cases within : Within (clearedBelow root plan) names
    · exact inside names within
    · rw [outside names within]
      cases present : alone.get? names with
      | some entry => rfl
      | none =>
        rw [Option.none_or]
        by_contra there
        exact covered names within there present

/-- A later request for another key at the same place leaves nothing of the earlier one. -/
theorem regenerated_key :
    ∃ left alone after,
      writeBelow ⟨""⟩ (keyPlan "Old" "src") [keyArtifact "Old" "src"] FileTree.empty =
        .ok () left ∧
      writeBelow ⟨""⟩ (keyPlan "New" "src") [keyArtifact "New" "src"] FileTree.empty =
        .ok () alone ∧
      writeBelow ⟨""⟩ (keyPlan "New" "src") [keyArtifact "New" "src"] left = .ok () after ∧
      left.get? ["src", "keys", "old_keys.rs"] ≠ none ∧
      after.get? ["src", "keys", "old_keys.rs"] = alone.get? ["src", "keys", "old_keys.rs"] ∧
      alone.get? ["src", "keys", "old_keys.rs"] = none := by
  have run : leavesBoth (keySteps "Old" "src") (keySteps "New" "src") (fun left alone _ =>
      left.get? ["src", "keys", "old_keys.rs"] ≠ none &&
        alone.get? ["src", "keys", "old_keys.rs"] = none) = true := by
    decide +kernel
  obtain ⟨left, alone, after, first, second, third, gone⟩ := exists_of_leavesBoth run
  rw [Bool.and_eq_true, decide_eq_true_iff, decide_eq_true_iff] at gone
  rw [← writeBelow_keyPlan] at first second third
  have downward : ∀ path ∈ pathsBelow ⟨""⟩ (keyPlan "New" "src") [keyArtifact "New" "src"],
      .up ∉ path.components := by
    rw [pathsBelow_keyPlan]
    decide +kernel
  have within : Within (clearedBelow ⟨""⟩ (keyPlan "New" "src"))
      ["src", "keys", "old_keys.rs"] := by
    rw [clearedBelow, managedDirectories_keyPlan]
    decide +kernel
  have old : "Old" ∈ stems.val := List.mem_cons_self
  have new : "New" ∈ stems.val := List.mem_cons_of_mem _ List.mem_cons_self
  obtain ⟨inside, -⟩ := (regenerated (artifacts_keyPlan old "src") first
    (ofRequest_keyBelow new "src") (artifacts_keyPlan new "src") downward).2 alone after second third
  exact ⟨left, alone, after, first, second, third, gone.1, inside _ within, gone.2⟩

/-- Not everything of an earlier request is gone. A file stays where the later plan has no
directory of its own, and where it names that directory by a detour that is not there yet; and a file
that stays can be in the way of the later ones. -/
theorem not_regenerated :
    (∃ left alone after, Generates (keyBelow "Old" "left") FileTree.empty left ∧
      Generates (keyBelow "New" "right") FileTree.empty alone ∧
      Generates (keyBelow "New" "right") left after ∧
      alone.get? ["left", "keys", "old_keys.rs"] = none ∧
      after.get? ["left", "keys", "old_keys.rs"] ≠ none) ∧
    (∃ left alone after, Generates (keyBelow "Old" "src") FileTree.empty left ∧
      Generates (keyBelow "New" "other/../src") FileTree.empty alone ∧
      Generates (keyBelow "New" "other/../src") left after ∧
      alone.get? ["src", "keys", "old_keys.rs"] = none ∧
      after.get? ["src", "keys", "old_keys.rs"] ≠ none) ∧
    ∃ left alone, Generates (keyBelow "Old" "src") FileTree.empty left ∧
      Generates (keyBelow "New" "src/keys/old_keys.rs") FileTree.empty alone ∧
      ¬∃ after, Generates (keyBelow "New" "src/keys/old_keys.rs") left after := by
  have old : "Old" ∈ stems.val := List.mem_cons_self
  have new : "New" ∈ stems.val := List.mem_cons_of_mem _ List.mem_cons_self
  simp only [generates_keyBelow_iff old, generates_keyBelow_iff new]
  refine ⟨?_, ?_, ?_⟩
  · have run : leavesBoth (keySteps "Old" "left") (keySteps "New" "right") (fun _ alone after =>
        alone.get? ["left", "keys", "old_keys.rs"] = none &&
          after.get? ["left", "keys", "old_keys.rs"] ≠ none) = true := by
      decide +kernel
    obtain ⟨left, alone, after, first, second, third, stays⟩ := exists_of_leavesBoth run
    rw [Bool.and_eq_true, decide_eq_true_iff, decide_eq_true_iff] at stays
    exact ⟨left, alone, after, first, second, third, stays⟩
  · have run : leavesBoth (keySteps "Old" "src") (keySteps "New" "other/../src")
        (fun _ alone after => alone.get? ["src", "keys", "old_keys.rs"] = none &&
          after.get? ["src", "keys", "old_keys.rs"] ≠ none) = true := by
      decide +kernel
    obtain ⟨left, alone, after, first, second, third, stays⟩ := exists_of_leavesBoth run
    rw [Bool.and_eq_true, decide_eq_true_iff, decide_eq_true_iff] at stays
    exact ⟨left, alone, after, first, second, third, stays⟩
  · have run : leaves (runAll (keySteps "Old" "src")) FileTree.empty (fun left =>
        leaves (runAll (keySteps "New" "src/keys/old_keys.rs")) FileTree.empty (fun _ => true) &&
          !leaves (runAll (keySteps "New" "src/keys/old_keys.rs")) left fun _ => true) = true := by
      decide +kernel
    obtain ⟨left, first, blocks⟩ := exists_of_leaves run
    rw [Bool.and_eq_true, Bool.not_eq_true'] at blocks
    obtain ⟨alone, second, -⟩ := exists_of_leaves blocks.1
    refine ⟨left, alone, first, second, ?_⟩
    rintro ⟨after, third⟩
    have fails := blocks.2
    simp [leaves, third] at fails

end Slotwise.Plan
