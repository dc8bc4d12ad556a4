import Slotwise.CommandLine.Arguments
import Slotwise.Configuration.Reader
import Slotwise.Manifest
import Slotwise.Preset
/-!
# Command line

One run of the program: what it reads, what it writes and what it shows. A run first generates
everything and then takes its steps on disk, so whatever goes wrong before the first step leaves the
disk as it was; a dry run takes no steps.
-/

namespace Slotwise

/-- The code that the program ends with after a failure. A name that no code can hold is a fault of
the program itself. -/
def Failure.exitCode : Failure → Nat
  | .illegalName _ => 101
  | _ => 1

namespace CommandLine

/-- The name of the program. -/
def programName : String := "algebraic-gen"

/-- The version of the program. -/
def programVersion : String := "0.1.0"

/-- The description of the options. -/
def helpText : String :=
  String.join ([
    "Code generator for N-ary products, sums, dualities and optics", "",
    "Usage: " ++ programName ++ " [OPTIONS]", "", "Options:",
    "  -c, --config <CONFIG>       TOML configuration describing what to generate",
    "  -p, --preset <PRESET>       Built-in model to generate (e.g., \"geometry\")",
    "  -o, --output <OUTPUT>       Output root that source roots are resolved against [default: .]",
    "      --dry-run               Print generated code without writing files",
    "      --cargo-toml <PACKAGE>  Also write a manifest for a crate with this package name",
    "      --root-index            Also write indexes into directories shared with host code",
    "  -v, --verbose...            Increase verbosity (-v, -vv, -vvv)",
    "  -h, --help                  Print help",
    "  -V, --version               Print version"].map (· ++ "\n"))

/-- What a successful run does and shows. -/
structure Run where
  /-- The steps on disk. -/
  steps : List DiskStep
  /-- What is shown in place of the steps. -/
  shown : String
  /-- The lines that sum up the run. -/
  summary : List String
deriving Repr

/-! ## From options to a run -/

/-- The request that the options name, where `read` answers what a file holds. -/
def Arguments.request (arguments : Arguments) (read : FilePath → Except DiskError String) :
    Except Failure Request :=
  match arguments.config, arguments.preset with
  | some path, _ =>
    match read ⟨path⟩ with
    | .ok text => Configuration.request text path
    | .error cause => .error (.unreadableRequest path cause)
  | none, some name =>
    match Preset.find? name with
    | some request => .ok request
    | none => .error (.unknownPreset name Preset.names)
  | none, none => .error .nothingToGenerate

/-- The request with module indexes everywhere if the options ask for them, as a manifest does. -/
def Arguments.adjusted (arguments : Arguments) (request : Request) : Request :=
  if arguments.rootIndex || arguments.package.isSome then
    { request with output := { request.output with rootIndex := true } }
  else request

/-- The directory that source roots are below. -/
def Arguments.root (arguments : Arguments) : FilePath :=
  ⟨arguments.output.getD "."⟩

/-- A file as it is shown in a dry run. -/
def shownFile (path : FilePath) (content : String) : String :=
  "=== " ++ path.text ++ " ===\n" ++ content ++ "\n\n"

/-- One line for each kind with artifacts. -/
def summary (dryRun : Bool) (artifacts : List Artifact) : List String :=
  Kind.all.filterMap fun kind =>
    let count := (artifacts.filter fun artifact => artifact.kind = kind).length
    let verb := if dryRun then "would generate" else "generated"
    if count = 0 then none else some s!"✓ {verb} {count} {kind.name}"

/-- The run for a plan and its artifacts. -/
def Arguments.runOf (arguments : Arguments) (plan : Plan) (artifacts : List Artifact) : Run :=
  let root := arguments.root
  let serializes := plan.request.serializes
  let summary := summary arguments.dryRun artifacts
  if arguments.dryRun then
    let manifest := arguments.package.toList.map fun package =>
      shownFile (Manifest.path root) (Manifest.text package serializes)
    let files := artifacts.map fun artifact => shownFile artifact.path artifact.content
    ⟨[], String.join (files ++ manifest), summary⟩
  else
    let manifest := arguments.package.toList.map fun package =>
      Manifest.writing root package serializes
    ⟨DiskStep.ofArtifacts root plan.managedDirectories artifacts ++ manifest, "", summary⟩

/-- The run that the options ask for. -/
def Arguments.run (arguments : Arguments) (read : FilePath → Except DiskError String) :
    Except Failure Run := do
  let request ← arguments.request read
  let plan ← Plan.ofRequest (arguments.adjusted request)
  let artifacts ← plan.artifacts
  return arguments.runOf plan artifacts

/-! ## Effects of a run -/

/-- How the program ends. -/
inductive Ending where
  /-- As it should. -/
  | success
  /-- The arguments break a rule. -/
  | misuse
  /-- With a failure. -/
  | failure (cause : Failure)
deriving Repr

/-- The code that the program ends with. -/
def Ending.exitCode : Ending → Nat
  | success => 0
  | misuse => 2
  | failure cause => cause.exitCode

/-- What a run leaves behind. -/
structure Outcome where
  /-- How the program ends. -/
  ending : Ending
  /-- What is shown. -/
  shown : String
  /-- The lines that sum up the run. -/
  summary : List String
  /-- The file tree afterwards. -/
  tree : FileTree
deriving Repr

/-- What a command line leaves behind, when it starts with this file tree. -/
def outcome (arguments : List String) (tree : FileTree) : Outcome :=
  match invocation? arguments with
  | none => ⟨.misuse, "", [], tree⟩
  | some .help => ⟨.success, helpText, [], tree⟩
  | some .version => ⟨.success, programName ++ " " ++ programVersion ++ "\n", [], tree⟩
  | some (.run arguments) =>
    match arguments.run tree.read with
    | .error cause => ⟨.failure cause, "", [], tree⟩
    | .ok run =>
      match DiskStep.runAll run.steps tree with
      | .ok _ tree => ⟨.success, run.shown, run.summary, tree⟩
      | .error cause tree => ⟨.failure cause, run.shown, [], tree⟩

end CommandLine

end Slotwise
