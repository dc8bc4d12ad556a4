import Mathlib.Data.List.Sort
import Slotwise.Proofs.Atomicity
import Slotwise.Proofs.DirectorySpelling
import Slotwise.Proofs.Writing
/-!
# Crates of generated code

A manifest names `src/lib.rs` as the root of its crate, and the index of a source root is called
`lib.rs`. But a source root is indexed only where the domain of a job is empty, and where indexes are
asked for at all: below a domain the code belongs to another crate, which has a root of its own.

Main statements: files that are written can be read when the run is over, whatever was written in
between (`exists_read_of_writing`); what a run with a manifest leaves (`outcome_with_manifest`), and one
that leaves no root of the crate (`not_outcome_with_manifest`).
-/

namespace Slotwise

open FileTree Disk

/-! ## Reading what was written -/

namespace Disk

variable {path other : FilePath} {front longer : List Char} {name last_ : String}
  {tree last : FileTree} {text content : String}

/-- What can be read at a path that ends in a name is the file there. -/
theorem read_eq_ok_iff (ends : path.Ends front name) :
    tree.read path = .ok text ↔
      ∃ names, tree.walk [] path.components = .ok names ∧ tree.get? names = some (.file text) := by
  rw [FileTree.read, locate_eq_walk tree ends]
  cases tree.walk [] path.components with
  | error error => simp
  | ok names =>
    simp only [Except.ok.injEq, exists_eq_left']
    cases tree.get? names with
    | none => simp
    | some entry => cases entry <;> simp

/-- A source file is read below a root however its path is written. -/
theorem read_below_congr {a b root : FilePath} (source : sourceSuffix <:+ a.text.toList)
    (source' : sourceSuffix <:+ b.text.toList) (same : a.components = b.components) :
    tree.read (DiskStep.below root a) = tree.read (DiskStep.below root b) := by
  have ends {path : FilePath} (source : sourceSuffix <:+ path.text.toList) :
      ∃ front name, (DiskStep.below root path).Ends front name := by
    obtain ⟨front, name, ends, -⟩ :=
      exists_ends_of_source (source.trans (FilePath.suffix_push root path.text))
    exact ⟨front, name, ends⟩
  obtain ⟨_, _, endsA⟩ := ends source
  obtain ⟨_, _, endsB⟩ := ends source'
  have components : (DiskStep.below root a).components = (DiskStep.below root b).components :=
    FilePath.components_push_congr same root
  rw [FileTree.read, FileTree.read, locate_eq_walk tree endsA, locate_eq_walk tree endsB, components]

/-- A file that was written can be read. -/
theorem read_of_write (closed : tree.Closed) (ends : path.Ends front name)
    (h : write path content tree = .ok () last) : last.read path = .ok content := by
  obtain ⟨above, through, writes⟩ := exists_writes closed ends h
  have present : last.get? (above ++ [name]) = some (.file content) :=
    (writes.file_iff _ _).2 (by rw [if_pos rfl])
  have parent := writes.closed (above ++ [name]) (by rw [present]; exact Option.some_ne_none _)
  rw [List.dropLast_concat] at parent
  refine (read_eq_ok_iff ends).2 ⟨above ++ [name], ?_, present⟩
  rw [ends.components, walk_append, through]
  simp only [walk_entry, parent]
  rfl

/-- A source file that can be read can still be read after another file was written: with its text or,
under the same name, with that of the other file. -/
theorem exists_read_of_write (closed : tree.Closed) (ends : path.Ends front name)
    (source : sourceSuffix <:+ name.toList) (held : tree.read path = .ok text)
    {front' : List Char} {name' : String} (ends' : other.Ends front' name')
    (h : write other content tree = .ok () last) :
    ∃ kept, last.read path = .ok kept ∧ (kept = text ∨ name' = name ∧ kept = content) := by
  obtain ⟨above, -, writes⟩ := exists_writes closed ends' h
  obtain ⟨names, reached, present⟩ := (read_eq_ok_iff ends).1 held
  have again := walk_of_directories writes.kept reached
  obtain ⟨directory, -, named⟩ := exists_walk_of_locate ends
    ((locate_eq_walk tree ends).trans reached)
  by_cases same : names = above ++ [name']
  · have name_ := List.append_inj' (named.symm.trans same) rfl
    refine ⟨content, (read_eq_ok_iff ends).2 ⟨names, again, ?_⟩,
      .inr ⟨(List.singleton_inj.1 name_.2).symm, rfl⟩⟩
    rw [writes.file_iff, if_pos same]
  · refine ⟨text, (read_eq_ok_iff ends).2 ⟨names, again, ?_⟩, .inl rfl⟩
    rw [writes.file_iff, if_neg same]
    refine ⟨fun temp => temporary_not_source above name' ?_, present⟩
    exact temp ▸ ⟨directory, name, named, source⟩

end Disk

namespace DiskStep

variable {tree last : FileTree} {files : List (FilePath × String)} {path : FilePath} {text : String}

theorem closed_of_clearing {directories : List FilePath} (closed : tree.Closed)
    (h : runAll (directories.map clear) tree = .ok () last) : last.Closed := by
  induction directories generalizing tree with
  | nil =>
    cases h
    exact closed
  | cons directory rest ih =>
    obtain ⟨between, first, others⟩ := runAll_cons.1 h
    obtain ⟨-, rfl⟩ := clear_eq_ok_iff.1 first
    exact ih (closed.clear directory) others

theorem closed_of_writing (closed : tree.Closed)
    (sources : ∀ file ∈ files, sourceSuffix <:+ file.1.text.toList)
    (h : runAll (files.map fun (path, content) => write path content) tree = .ok () last) :
    last.Closed := by
  induction files generalizing tree with
  | nil =>
    cases h
    exact closed
  | cons file rest ih =>
    obtain ⟨source, sources⟩ := List.forall_mem_cons.1 sources
    obtain ⟨between, first, others⟩ := runAll_cons.1 h
    obtain ⟨front, name, ends, -⟩ := exists_ends_of_source source
    obtain ⟨above, -, writes⟩ := exists_writes closed ends first
    exact ih writes.closed sources others

/-- A source file that can be read before others are written can still be read then, perhaps with the
text of one of them. -/
theorem kept_of_writing (closed : tree.Closed)
    (sources : ∀ file ∈ files, sourceSuffix <:+ file.1.text.toList)
    (h : runAll (files.map fun (path, content) => write path content) tree = .ok () last)
    (source : sourceSuffix <:+ path.text.toList) (held : tree.read path = .ok text) :
    ∃ kept, last.read path = .ok kept ∧ (kept = text ∨ kept ∈ files.map (·.2)) := by
  induction files generalizing tree text with
  | nil =>
    cases h
    exact ⟨text, held, .inl rfl⟩
  | cons file rest ih =>
    obtain ⟨sourceFile, sources⟩ := List.forall_mem_cons.1 sources
    obtain ⟨between, first, others⟩ := runAll_cons.1 h
    obtain ⟨front, name, ends, suffix⟩ := exists_ends_of_source source
    obtain ⟨front', name', ends', -⟩ := exists_ends_of_source sourceFile
    obtain ⟨above, -, writes⟩ := exists_writes closed ends' first
    obtain ⟨next, read, own⟩ := exists_read_of_write closed ends suffix held ends' first
    obtain ⟨kept, read, origin⟩ := ih writes.closed sources others read
    refine ⟨kept, read, ?_⟩
    rw [List.map_cons, List.mem_cons]
    obtain rfl | among := origin
    · exact own.imp_right fun ⟨_, new⟩ => .inl new
    · exact .inr (.inr among)

/-- Every file that was written can be read when all are, with its text or with that of another one. -/
theorem exists_read_of_writing (closed : tree.Closed)
    (sources : ∀ file ∈ files, sourceSuffix <:+ file.1.text.toList)
    (h : runAll (files.map fun (path, content) => write path content) tree = .ok () last) :
    ∀ file ∈ files, ∃ kept ∈ files.map (·.2), last.read file.1 = .ok kept := by
  induction files generalizing tree with
  | nil => exact fun file member => absurd member List.not_mem_nil
  | cons file rest ih =>
    obtain ⟨source, tail⟩ := List.forall_mem_cons.1 sources
    obtain ⟨between, first, others⟩ := runAll_cons.1 h
    obtain ⟨front, name, ends, -⟩ := exists_ends_of_source source
    obtain ⟨above, -, writes⟩ := exists_writes closed ends first
    intro other member
    rw [List.map_cons]
    obtain rfl | among := List.mem_cons.1 member
    · have read := read_of_write closed ends first
      obtain ⟨kept, read, origin⟩ := kept_of_writing writes.closed tail others source read
      exact ⟨kept, List.mem_cons.2 origin, read⟩
    · obtain ⟨kept, origin, read⟩ := ih writes.closed tail others other among
      exact ⟨kept, List.mem_cons_of_mem _ origin, read⟩

end DiskStep

namespace CommandLine

open Plan DiskStep

variable {options : Arguments} {plan : Plan} {artifacts : List Artifact} {package : String}
  {tree last : FileTree}

/-! ## Runs with a manifest -/

theorem exists_ends_manifest (root : FilePath) :
    ∃ front, (Manifest.path root).Ends front Manifest.fileName := by
  have name : FilePath.Ends ⟨Manifest.fileName⟩ [] Manifest.fileName :=
    ⟨⟨by decide, by decide⟩, rfl, .inl rfl⟩
  exact name.push (by decide) root

/-- No source file is called like a manifest. -/
theorem not_source_manifest : ¬sourceSuffix <:+ Manifest.fileName.toList := by
  decide

/-- After a run with a manifest, the manifest and every artifact can be read, an artifact with its text or
with that of another one. -/
theorem read_of_steps (made : plan.artifacts = .ok artifacts) (named : options.package = some package)
    (closed : tree.Closed) (h : runAll (options.steps plan artifacts) tree = .ok () last) :
    last.read (Manifest.path options.root) =
        .ok (Manifest.text package plan.request.serializes) ∧
      ∀ artifact ∈ artifacts, ∃ other ∈ artifacts,
        last.read (below options.root artifact.path) = .ok other.content := by
  rw [Arguments.steps, ofArtifacts_eq, named, runAll_append] at h
  obtain ⟨between, batch, manifest⟩ := h
  obtain ⟨cleared, clearing, writing⟩ := runAll_append.1 batch
  have sources : ∀ file ∈ filesBelow options.root artifacts,
      sourceSuffix <:+ file.1.text.toList := fun file member =>
    sources_of_files made file.1 (List.mem_map_of_mem member)
  have closedCleared := closed_of_clearing closed clearing
  have closedBetween := closed_of_writing closedCleared sources writing
  obtain ⟨front, ends⟩ := exists_ends_manifest options.root
  have written : write (Manifest.path options.root)
      (Manifest.text package plan.request.serializes) between = .ok () last := by
    obtain ⟨end_, first, rest⟩ := runAll_cons.1 manifest
    cases rest
    exact first
  refine ⟨read_of_write closedBetween ends written, fun artifact member => ?_⟩
  have file : (below options.root artifact.path, artifact.content) ∈
      filesBelow options.root artifacts := List.mem_map_of_mem member
  obtain ⟨content, origin, before⟩ := exists_read_of_writing closedCleared sources writing _ file
  obtain ⟨front', name, ends', suffix⟩ := exists_ends_of_source (sources _ file)
  obtain ⟨kept, read, rfl | ⟨name_, -⟩⟩ :=
    exists_read_of_write closedBetween ends' suffix before ends written
  · obtain ⟨_, among, rfl⟩ := List.mem_map.1 origin
    obtain ⟨other, inside, rfl⟩ := List.mem_map.1 among
    exact ⟨other, inside, read⟩
  · exact absurd (name_ ▸ suffix) not_source_manifest

/-- What a run with a manifest generates is indexed from its root. -/
theorem rootIndex_of_plan (named : options.package = some package)
    {read : FilePath → Except DiskError String} (planned : options.plan read = .ok plan) :
    ∃ request, Planned request plan ∧ plan.request.output.rootIndex = true := by
  obtain ⟨request, -, planned⟩ := Outcome.bind_eq_ok_iff.1 planned
  have planned := planned_of_ofRequest planned
  refine ⟨_, planned, ?_⟩
  rw [planned.output_eq, Arguments.adjusted, named, Option.isSome_some, Bool.or_true, if_pos rfl]

end CommandLine

namespace Plan

variable {request : Request} {plan : Plan} {artifacts : List Artifact}

/-! ## Roots of crates -/

/-- The root of a crate is indexed if everything is. -/
theorem exists_rootIndex (made : plan.artifacts = .ok artifacts)
    (asked : plan.request.output.moduleIndex = true) (all : plan.request.output.rootIndex = true)
    {job : Job} (member : job ∈ plan.jobs) (root : ModulePath.segments job.place.domain = []) :
    ∃ artifact ∈ artifacts, artifact.kind = .index ∧ artifact.path.components =
      FilePath.components ⟨job.place.sourceRoot⟩ ++ [FilePath.Component.entry "lib.rs"] := by
  have leads : ∃ module, plan.LeadsTo ⟨job.place.sourceRoot⟩ module := by
    obtain ⟨module, next⟩ : ∃ module, job.modules[0]? = some module := by
      cases segments : job.place.segments <;> simp [Job.modules, segments]
    exact ⟨module, job, member, 0, ⟨.inr root, next⟩, rfl⟩
  obtain ⟨artifact, only, index⟩ := exists_indexesIn_eq made asked ⟨leads, .inl all⟩
  have inside : artifact ∈ indexesIn artifacts ⟨job.place.sourceRoot⟩ := by
    rw [only]
    exact List.mem_singleton_self artifact
  exact ⟨artifact, (mem_indexesIn_iff.1 inside).1, index.kind,
    index.root ⟨job, member, root, rfl⟩⟩

/-- An index is called as the root of a crate only if it is one. -/
theorem root_of_lib (made : plan.artifacts = .ok artifacts) {artifact : Artifact}
    (member : artifact ∈ artifacts) (kind : artifact.kind = .index)
    (lib : artifact.path.components.getLast? = some (.entry "lib.rs")) :
    plan.request.output.moduleIndex = true ∧
      ∃ job ∈ plan.jobs, ModulePath.segments job.place.domain = [] := by
  refine ⟨(exists_index_of_mem made member kind).1, ?_⟩
  obtain ⟨directory, -, index⟩ := exists_isIndex made member kind
  by_cases root : plan.RootOfCrate directory
  · obtain ⟨job, inside, domain, -⟩ := root
    exact ⟨job, inside, domain⟩
  · rw [index.inner root, List.getLast?_concat] at lib
    simp at lib

end Plan

namespace CommandLine

open Plan DiskStep

/-- A run that is successful has taken its steps. -/
theorem exists_steps_of_success {arguments : List String} {options : Arguments} {tree : FileTree}
    (asked : invocation? arguments = some (.run options)) (wet : options.dryRun = false)
    (success : (outcome arguments tree).ending = .success) :
    ∃ plan artifacts, options.plan tree.read = .ok plan ∧ plan.artifacts = .ok artifacts ∧
      runAll (options.steps plan artifacts) tree = .ok () (outcome arguments tree).tree := by
  cases generated : options.run tree.read with
  | error cause => simp [outcome, asked, generated] at success
  | ok run =>
    obtain ⟨plan, artifacts, planned, made, rfl⟩ := Arguments.run_eq_ok_iff.1 generated
    refine ⟨plan, artifacts, planned, made, ?_⟩
    cases written : runAll (options.steps plan artifacts) tree with
    | ok _ last => rw [(outcome_of_steps asked wet generated).1 written]
    | error cause last =>
      rw [(outcome_of_steps asked wet generated).2 cause written] at success
      cases success

/-- The root of the crate that a manifest names. -/
def libraryRoot : FilePath :=
  ⟨"src/lib.rs"⟩

/-- A run with a manifest that is successful leaves the manifest, and the root of the crate that it names
if modules are indexed and some job without domain goes to `src`. Each source root of a job without domain
gets an index called `lib.rs`; where no indexes are asked for or all jobs have a domain, none is called so.
-/
theorem outcome_with_manifest {arguments : List String} {options : Arguments} {package : String}
    {tree : FileTree} (asked : invocation? arguments = some (.run options))
    (named : options.package = some package) (wet : options.dryRun = false) (closed : tree.Closed)
    (success : (outcome arguments tree).ending = .success) :
    ∃ plan artifacts, options.plan tree.read = .ok plan ∧ plan.artifacts = .ok artifacts ∧
      (outcome arguments tree).tree.read (Manifest.path options.root) =
        .ok (Manifest.text package plan.request.serializes) ∧
      "path = \"" ++ libraryRoot.text ++ "\"" ∈ Manifest.head package ∧
      (plan.request.output.moduleIndex = true →
        (∃ job ∈ plan.jobs, ModulePath.segments job.place.domain = [] ∧
          FilePath.components ⟨job.place.sourceRoot⟩ = FilePath.components ⟨"src"⟩) →
        ∃ artifact ∈ artifacts, (outcome arguments tree).tree.read (below options.root libraryRoot) =
          .ok artifact.content) ∧
      (plan.request.output.moduleIndex = true →
        ∀ job ∈ plan.jobs, ModulePath.segments job.place.domain = [] →
          ∃ artifact ∈ artifacts, artifact.kind = .index ∧ artifact.path.components =
            FilePath.components ⟨job.place.sourceRoot⟩ ++ [.entry "lib.rs"]) ∧
      ((plan.request.output.moduleIndex = false ∨
          ∀ job ∈ plan.jobs, ModulePath.segments job.place.domain ≠ []) →
        ∀ artifact ∈ artifacts, artifact.kind = .index →
          artifact.path.components.getLast? ≠ some (.entry "lib.rs")) := by
  obtain ⟨plan, artifacts, planned, made, written⟩ := exists_steps_of_success asked wet success
  obtain ⟨request, planned', all⟩ := rootIndex_of_plan named planned
  obtain ⟨manifest, held⟩ := read_of_steps made named closed written
  refine ⟨plan, artifacts, planned, made, manifest, by simp [Manifest.head, libraryRoot],
    fun modules crate => ?_, fun modules job member root => exists_rootIndex made modules all member root,
    fun none_ artifact member kind lib => ?_⟩
  · obtain ⟨job, member, root, src⟩ := crate
    obtain ⟨artifact, inside, -, path⟩ := exists_rootIndex made modules all member root
    obtain ⟨other, among, read⟩ := held artifact inside
    have same : artifact.path.components = libraryRoot.components := by
      rw [path, src]
      decide
    exact ⟨other, among, read_below_congr (suffix_path made inside) (by decide) same ▸ read⟩
  · obtain ⟨modules, job, inside, root⟩ := root_of_lib made member kind lib
    obtain unasked | domains := none_
    · rw [modules] at unasked
      cases unasked
    · exact domains job inside root

/-! ## Crates for a key -/

/-- A tree with a configuration for a key, behind these settings. -/
def configuredWith (settings : String) : FileTree :=
  ⟨[(["c.toml"], .file (settings ++ "[[keys]]\nprefix = \"N\"\ncount = 1\n"))]⟩

/-- The arguments for a crate in a directory of its own. -/
def crateArguments : List String :=
  ["-c", "c.toml", "-o", "o", "--cargo-toml", "n"]

/-- The options that the arguments stand for. -/
def crateOptions : Arguments :=
  { config := some "c.toml", output := some "o", package := some "n" }

theorem invocation_crateArguments : invocation? crateArguments = some (.run crateOptions) := by
  decide +kernel

theorem closed_configuredWith (settings : String) : (configuredWith settings).Closed := by
  refine closed_of_forall_entries fun entry member => ?_
  rw [List.mem_singleton.1 member]
  rfl

/-- Whether a run ends with success and its tree passes a test. -/
def leavesTree (left : Outcome) (test : FileTree → Bool) : Bool :=
  match left.ending with
  | .success => test left.tree
  | _ => false

theorem of_leavesTree {left : Outcome} {test : FileTree → Bool} (h : leavesTree left test = true) :
    left.ending = .success ∧ test left.tree = true := by
  rw [leavesTree] at h
  split at h
  · next success => exact ⟨success, h⟩
  · cases h

/-- Without domain there is the root of the crate. -/
theorem outcome_with_manifest_key :
    (outcome crateArguments (configuredWith "")).ending = .success ∧
      ∃ artifact : Artifact, (outcome crateArguments (configuredWith "")).tree.read
        (below crateOptions.root libraryRoot) = .ok artifact.content := by
  have ends : leavesTree (outcome crateArguments (configuredWith "")) (fun _ => true) = true := by
    simp only [outcome, Arguments.run, Arguments.runOf, artifacts_eq_insertionSort, ofRequest, allJobs,
      directoriesToIndex, indexedDirectories, Plan.indexes, managedDirectories,
      Ordered.sortedSet_eq_foldr]
    decide +kernel
  have works : passes (crateOptions.plan (configuredWith "").read) (fun plan =>
      plan.request.output.moduleIndex && plan.jobs.any fun job =>
        decide (ModulePath.segments job.place.domain = []) && decide (job.place.sourceRoot = "src")) =
      true := by
    simp only [Arguments.plan, ofRequest, allJobs, Ordered.sortedSet_eq_foldr]
    decide +kernel
  have success := (of_leavesTree ends).1
  obtain ⟨plan, planned, test⟩ := exists_of_passes works
  simp only [Bool.and_eq_true, List.any_eq_true, decide_eq_true_eq] at test
  obtain ⟨modules, job, member, root, src⟩ := test
  obtain ⟨plan', artifacts, planned', made, -, -, crate, -⟩ := outcome_with_manifest
    invocation_crateArguments rfl rfl (closed_configuredWith "") success
  cases planned.symm.trans planned'
  obtain ⟨artifact, -, read⟩ := crate modules ⟨job, member, root, by rw [src]⟩
  exact ⟨success, artifact, read⟩

/-- Below a domain there is a manifest, but no root of the crate that it names. -/
theorem not_outcome_with_manifest :
    (∃ plan artifacts, crateOptions.plan (configuredWith "[output]\ndomain = \"m\"\n").read = .ok plan ∧
      plan.artifacts = .ok artifacts ∧ plan.jobs ≠ []) ∧
    (outcome crateArguments (configuredWith "[output]\ndomain = \"m\"\n")).ending = .success ∧
    (outcome crateArguments (configuredWith "[output]\ndomain = \"m\"\n")).tree.get?
      ["o", "Cargo.toml"] ≠ none ∧
    (outcome crateArguments (configuredWith "[output]\ndomain = \"m\"\n")).tree.get?
      ["o", "src", "lib.rs"] = none := by
  have ends : leavesTree (outcome crateArguments (configuredWith "[output]\ndomain = \"m\"\n"))
      (fun last => decide (last.get? ["o", "Cargo.toml"] ≠ none) &&
        decide (last.get? ["o", "src", "lib.rs"] = none)) = true := by
    simp only [outcome, Arguments.run, Arguments.runOf, artifacts_eq_insertionSort, ofRequest, allJobs,
      directoriesToIndex, indexedDirectories, Plan.indexes, managedDirectories,
      Ordered.sortedSet_eq_foldr]
    decide +kernel
  have works : passes (crateOptions.plan (configuredWith "[output]\ndomain = \"m\"\n").read)
      (fun plan => plan.jobs.length = 1) = true := by
    simp only [Arguments.plan, ofRequest, allJobs, Ordered.sortedSet_eq_foldr]
    decide +kernel
  obtain ⟨success, test⟩ := of_leavesTree ends
  rw [Bool.and_eq_true, decide_eq_true_eq, decide_eq_true_eq] at test
  obtain ⟨plan, planned, single⟩ := exists_of_passes works
  obtain ⟨plan', artifacts, planned', made, -⟩ :=
    exists_steps_of_success invocation_crateArguments rfl success
  cases planned.symm.trans planned'
  refine ⟨⟨plan, artifacts, planned, made, fun none_ => ?_⟩, success, test.1, test.2⟩
  rw [none_] at single
  cases single

end CommandLine

end Slotwise
