import Slotwise.Proofs.Effect
import Slotwise.Proofs.FileModules
import Slotwise.Proofs.Regeneration
/-!
# Writing a plan over any tree

The files of a plan go below an output root, over a tree that may hold anything already. The
directories that the plan owns are replaced as a whole; around them only the artifacts are written.
The root itself may lead upwards, as long as it can be followed in what clearing leaves: a step upwards
out of a directory that is not there leads nowhere, and clearing skips what it cannot reach.

Main statements: the files after writing a plan (`written_over`), and roots and places for which less
holds (`not_written_over`).
-/

namespace Slotwise.Plan

open FileTree Disk DiskStep

variable {request : Request} {plan : Plan} {artifacts : List Artifact} {root : FilePath}
  {base : List String} {tree last : FileTree}

/-- The paths of artifacts with their texts. -/
def filesOf (artifacts : List Artifact) : List (FilePath × String) :=
  artifacts.map fun artifact => (artifact.path, artifact.content)

/-- Among the members with a property there is a last one. -/
theorem exists_latest {α : Type} {xs : List α} (P : α → Prop) {x : α} (member : x ∈ xs)
    (holds : P x) :
    ∃ before latest after, xs = before ++ latest :: after ∧ P latest ∧ ∀ y ∈ after, ¬P y := by
  induction xs generalizing x with
  | nil => cases member
  | cons first rest ih =>
    by_cases later : ∃ y ∈ rest, P y
    · obtain ⟨y, among, holds'⟩ := later
      obtain ⟨before, latest, after, split_, found⟩ := ih among holds'
      exact ⟨first :: before, latest, after, by rw [split_]; rfl, found⟩
    · obtain rfl | among := List.mem_cons.1 member
      · exact ⟨[], x, rest, rfl, holds, fun y inside holds' => later ⟨y, inside, holds'⟩⟩
      · exact absurd ⟨x, among, holds⟩ later

/-- The file of an artifact leads downwards. -/
theorem local_of_mem_filesOf (planned : Planned request plan) (made : plan.artifacts = .ok artifacts)
    (downward : plan.Downward) : ∀ path ∈ (filesOf artifacts).map (·.1), path.Local := by
  intro path member
  simp only [filesOf, List.map_map, List.mem_map, Function.comp_apply] at member
  obtain ⟨artifact, among, rfl⟩ := member
  exact local_of_artifact planned made downward among

/-- The last text on an artifact's path is that of the last artifact on it. -/
theorem exists_lastContent (base : List String) {artifact : Artifact} (member : artifact ∈ artifacts) :
    ∃ (before : List Artifact) (latest : Artifact) (after : List Artifact),
      artifacts = before ++ latest :: after ∧
      latest.path.names = artifact.path.names ∧
      (∀ later ∈ after, later.path.names ≠ artifact.path.names) ∧
      lastContent base (filesOf artifacts) (base ++ artifact.path.names) = some latest.content := by
  obtain ⟨before, latest, after, split_, same, later⟩ :=
    exists_latest (fun other : Artifact => other.path.names = artifact.path.names) member rfl
  refine ⟨before, latest, after, split_, same, later, ?_⟩
  rw [split_, filesOf, List.map_append, List.map_cons, ← same]
  refine lastContent_append_cons fun file among => ?_
  obtain ⟨other, inside, rfl⟩ := List.mem_map.1 among
  rw [same]
  exact later other inside

/-- Artifacts are source files, and files are written first to files of another kind. -/
theorem tempsApart_filesOf (planned : Planned request plan) (made : plan.artifacts = .ok artifacts)
    (downward : plan.Downward) : TempsApart ((filesOf artifacts).map (·.1)) := by
  intro path member other among same
  simp only [filesOf, List.map_map, List.mem_map, Function.comp_apply] at member among
  obtain ⟨artifact, inside, rfl⟩ := member
  obtain ⟨artifact', inside', rfl⟩ := among
  obtain ⟨front, name, ends⟩ := (local_of_artifact planned made downward inside).named
  have source := isSource_of_artifact made inside'
  rw [← same, (ends_temporary ends).names] at source
  exact temporary_not_source _ name source

/-- What a plan that was written leaves of files. -/
theorem file_iff_of_written (planned : Planned request plan) (made : plan.artifacts = .ok artifacts)
    (downward : plan.Downward) (closed : tree.Closed)
    (survives : (tree.without (placesBelow base plan.managedDirectories)).LeadsTo
      root.components base)
    (written : writeBelow root plan artifacts tree = .ok () last) :
    last.Closed ∧ last.LeadsTo root.components base ∧ ∀ names text,
      last.get? names = some (.file text) ↔
        lastContent base (filesOf artifacts) names = some text ∨
          lastContent base (filesOf artifacts) names = none ∧
            (∀ file ∈ filesOf artifacts, names ≠ base ++ (temporary file.1).names) ∧
            (∀ place ∈ placesBelow base plan.managedDirectories, ¬place <+: names) ∧
            tree.get? names = some (.file text) :=
  file_iff_of_batch (fun _ managed => local_of_managed planned downward managed)
    (local_of_mem_filesOf planned made downward) (tempsApart_filesOf planned made downward) closed
    survives written

/-- Every artifact's path holds the text of the last artifact on it. -/
theorem exists_read_of_written (planned : Planned request plan)
    (made : plan.artifacts = .ok artifacts) (downward : plan.Downward) (closed : tree.Closed)
    (survives : (tree.without (placesBelow base plan.managedDirectories)).LeadsTo
      root.components base)
    (written : writeBelow root plan artifacts tree = .ok () last) {artifact : Artifact}
    (member : artifact ∈ artifacts) :
    ∃ (before : List Artifact) (latest : Artifact) (after : List Artifact),
      artifacts = before ++ latest :: after ∧
      latest.path.names = artifact.path.names ∧
      (∀ later ∈ after, later.path.names ≠ artifact.path.names) ∧
      last.read (below root artifact.path) = .ok latest.content := by
  obtain ⟨closedLast, leads, fileLast⟩ :=
    file_iff_of_written planned made downward closed survives written
  obtain ⟨before, latest, after, split_, same, later, content⟩ := exists_lastContent base member
  have inside := local_of_artifact planned made downward member
  obtain ⟨front, name, ends⟩ := inside.named
  obtain ⟨longer, endsBelow⟩ := ends.push inside.relative root
  exact ⟨before, latest, after, split_, same, later,
    closedLast.read_eq endsBelow (leads.push inside.relative inside.downward)
      ((fileLast _ _).2 (.inl content))⟩

/-- A file that is neither in a directory that the plan owns nor on the path of an artifact is as it
was. -/
theorem file_iff_of_apart (planned : Planned request plan) (made : plan.artifacts = .ok artifacts)
    (downward : plan.Downward) (closed : tree.Closed)
    (survives : (tree.without (placesBelow base plan.managedDirectories)).LeadsTo
      root.components base)
    (written : writeBelow root plan artifacts tree = .ok () last) {names : List String}
    (outside : ∀ place ∈ placesBelow base plan.managedDirectories, ¬place <+: names)
    (other : ∀ artifact ∈ artifacts, names ≠ base ++ artifact.path.names ∧
      names ≠ base ++ (temporary artifact.path).names) (text : String) :
    last.get? names = some (.file text) ↔ tree.get? names = some (.file text) := by
  obtain ⟨-, -, fileLast⟩ := file_iff_of_written planned made downward closed survives written
  have none_ : lastContent base (filesOf artifacts) names = none := by
    refine lastContent_eq_none_iff.2 fun file among => ?_
    obtain ⟨artifact, member, rfl⟩ := List.mem_map.1 among
    exact (other artifact member).1
  have beside : ∀ file ∈ filesOf artifacts, names ≠ base ++ (temporary file.1).names := by
    intro file among
    obtain ⟨artifact, member, rfl⟩ := List.mem_map.1 among
    exact (other artifact member).2
  rw [fileLast, none_]
  constructor
  · rintro (content | ⟨-, -, -, there⟩)
    · cases content
    · exact there
  · exact fun there => .inr ⟨rfl, beside, outside, there⟩

/-- Writing a plan over a tree. The root is followed to a place that clearing leaves, and the
directories of the jobs lead downwards from there. Then every artifact's path holds the text of the last
artifact on it; in the directories that the plan owns there are no other files; no file is left where an
artifact was written first; and every other file is as it was. -/
theorem written_over (h : ofRequest request = .ok plan) (made : plan.artifacts = .ok artifacts)
    (downward : plan.Downward) (closed : tree.Closed)
    (survives : (tree.without (placesBelow base plan.managedDirectories)).LeadsTo
      root.components base)
    (written : writeBelow root plan artifacts tree = .ok () last) :
    (∀ artifact ∈ artifacts, ∃ before latest after, artifacts = before ++ latest :: after ∧
      latest.path.names = artifact.path.names ∧
      (∀ later ∈ after, later.path.names ≠ artifact.path.names) ∧
      last.read (below root artifact.path) = .ok latest.content) ∧
    (∀ place ∈ placesBelow base plan.managedDirectories, ∀ names text, place <+: names →
      last.get? names = some (.file text) →
      ∃ artifact ∈ artifacts, names = base ++ artifact.path.names ∧ text = artifact.content) ∧
    (∀ artifact ∈ artifacts, ∀ text,
      last.get? (base ++ (temporary artifact.path).names) ≠ some (.file text)) ∧
    ∀ names, (∀ place ∈ placesBelow base plan.managedDirectories, ¬place <+: names) →
      (∀ artifact ∈ artifacts, names ≠ base ++ artifact.path.names ∧
        names ≠ base ++ (temporary artifact.path).names) →
      ∀ text, last.get? names = some (.file text) ↔ tree.get? names = some (.file text) := by
  have planned := planned_of_ofRequest h
  obtain ⟨-, -, fileLast⟩ := file_iff_of_written planned made downward closed survives written
  refine ⟨fun artifact member =>
      exists_read_of_written planned made downward closed survives written member,
    fun place owned names text within there => ?_, fun artifact member text there => ?_,
    fun names outside other text => ?_⟩
  · obtain content | ⟨-, -, outside, -⟩ := (fileLast names text).1 there
    · obtain ⟨file, among, place_, rfl⟩ := mem_of_lastContent content
      obtain ⟨artifact, member, rfl⟩ := List.mem_map.1 among
      exact ⟨artifact, member, place_, rfl⟩
    · exact absurd within (outside place owned)
  · have file : (artifact.path, artifact.content) ∈ filesOf artifacts :=
      List.mem_map.2 ⟨artifact, member, rfl⟩
    obtain content | ⟨-, beside, -⟩ := (fileLast _ text).1 there
    · obtain ⟨other, among, same, -⟩ := mem_of_lastContent content
      exact tempsApart_filesOf planned made downward _ (List.mem_map_of_mem file) _
        (List.mem_map_of_mem among) (List.append_cancel_left same)
    · exact beside _ file rfl
  · exact file_iff_of_apart planned made downward closed survives written outside other text

/-! ## Roots that lead upwards -/

theorem downward_keyPlan (stem : String) : (keyPlan stem "src").Downward := by
  intro job member
  rw [List.mem_singleton.1 member, directory_keyJob]
  decide +kernel

theorem content_keyArtifact (stem sourceRoot : String) :
    (keyArtifact stem sourceRoot).content = keyContent stem := by
  rw [keyArtifact]

theorem writeBelow_keyPlan_below (root : FilePath) (stem sourceRoot : String) :
    writeBelow root (keyPlan stem sourceRoot) [keyArtifact stem sourceRoot] =
      runAll [.clear (below root (keyDirectory sourceRoot)),
        .write (below root (keyArtifact stem sourceRoot).path) (keyContent stem)] := by
  rw [writeBelow, ofArtifacts_eq, clearedBelow, managedDirectories_keyPlan]
  rfl

/-- A tree with generated keys and other files in the directory `b`, and with these other ones. -/
def aroundKeys (others : List (List String × Entry)) : FileTree :=
  ⟨others ++ [(["b"], .directory), (["b", "src"], .directory), (["b", "src", "keys"], .directory),
    (["b", "src", "keys", "old_keys.rs"], .file "// old"), (["b", "src", "mine.rs"], .file "// mine")]⟩

/-- The root leads out of a directory that is there. The old keys are gone and the new ones are in
place, and the file beside their directory is as it was. -/
theorem written_over_keys :
    ∃ last, writeBelow ⟨"a/../b"⟩ (keyPlan "New" "src") [keyArtifact "New" "src"]
        (aroundKeys [(["a"], .directory)]) = .ok () last ∧
      last.read (below ⟨"a/../b"⟩ (keyArtifact "New" "src").path) = .ok (keyContent "New") ∧
      (∀ text, last.get? ["b", "src", "keys", "old_keys.rs"] ≠ some (.file text)) ∧
      last.get? ["b", "src", "mine.rs"] = some (.file "// mine") := by
  have run : leaves (runAll [.clear (below ⟨"a/../b"⟩ (keyDirectory "src")),
      .write (below ⟨"a/../b"⟩ (keyArtifact "New" "src").path) (keyContent "New")])
      (aroundKeys [(["a"], .directory)]) (fun _ => true) = true := by
    decide +kernel
  obtain ⟨last, written, -⟩ := exists_of_leaves run
  rw [← writeBelow_keyPlan_below] at written
  have known : "New" ∈ stems.val := List.mem_cons_of_mem _ List.mem_cons_self
  have names : (keyArtifact "New" "src").path.names = ["src", "keys", "new_keys.rs"] := by
    decide +kernel
  have places : placesBelow ["b"] (keyPlan "New" "src").managedDirectories =
      [["b", "src", "keys"]] := by
    rw [managedDirectories_keyPlan]
    decide +kernel
  have closed : (aroundKeys [(["a"], .directory)]).Closed :=
    closed_of_forall_entries (by decide +kernel)
  have survives : ((aroundKeys [(["a"], .directory)]).without
      (placesBelow ["b"] (keyPlan "New" "src").managedDirectories)).LeadsTo
        (FilePath.components ⟨"a/../b"⟩) ["b"] := by
    rw [places]
    exact ⟨[], by decide +kernel, rfl, by decide +kernel⟩
  obtain ⟨held, owned, -, kept⟩ := written_over (ofRequest_keyBelow known "src")
    (artifacts_keyPlan known "src") (downward_keyPlan "New") closed survives written
  simp only [places, List.mem_singleton, forall_eq, exists_eq_left, names] at held owned kept
  refine ⟨last, written, ?_, fun text there => ?_, ?_⟩
  · obtain ⟨before, latest, after, split_, -, -, read⟩ := held
    have member : latest ∈ [keyArtifact "New" "src"] := by
      rw [split_]
      exact List.mem_append_right _ List.mem_cons_self
    rw [read, List.mem_singleton.1 member, content_keyArtifact]
  · have new := (owned _ text (by decide +kernel) there).1
    exact absurd new (by decide +kernel)
  · have apart : ["b", "src", "mine.rs"] ≠
        ["b"] ++ (temporary (keyArtifact "New" "src").path).names := by
      decide +kernel
    exact (kept _ (by decide +kernel) ⟨by decide +kernel, apart⟩ _).2 (by decide +kernel)

/-- The root leads out of a directory that is not there when the old files are to be cleared, but is
by the time the new ones are written. -/
theorem not_written_over :
    ∃ plan artifacts last, ofRequest (keyBelow "New" "src") = .ok plan ∧
      plan.artifacts = .ok artifacts ∧ plan.Downward ∧ (aroundKeys []).Closed ∧
      writeBelow ⟨"a/../b"⟩ plan artifacts (aroundKeys []) = .ok () last ∧
      ∃ directory ∈ plan.managedDirectories,
        last.find? (below ⟨"a/../b"⟩ (directory.push "old_keys.rs")) = some (.file "// old") ∧
        ∀ artifact ∈ artifacts, artifact.path.names ≠ (directory.push "old_keys.rs").names := by
  have run : leaves (runAll [.clear (below ⟨"a/../b"⟩ (keyDirectory "src")),
      .write (below ⟨"a/../b"⟩ (keyArtifact "New" "src").path) (keyContent "New")])
      (aroundKeys []) (fun last => last.find? (below ⟨"a/../b"⟩
        ((keyDirectory "src").push "old_keys.rs")) = some (.file "// old")) = true := by
    decide +kernel
  obtain ⟨last, written, old⟩ := exists_of_leaves run
  rw [decide_eq_true_iff] at old
  rw [← writeBelow_keyPlan_below] at written
  have known : "New" ∈ stems.val := List.mem_cons_of_mem _ List.mem_cons_self
  refine ⟨_, _, last, ofRequest_keyBelow known "src", artifacts_keyPlan known "src",
    downward_keyPlan "New", closed_of_forall_entries (by decide +kernel), written,
    keyDirectory "src", ?_, old, fun artifact member => ?_⟩
  · rw [managedDirectories_keyPlan]
    exact List.mem_singleton_self _
  · rw [List.mem_singleton.1 member]
    decide +kernel

end Slotwise.Plan
