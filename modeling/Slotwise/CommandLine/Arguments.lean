/-!
# Arguments of the command line

The options of the program and how they are given. An option with a value takes it from the same
argument, behind an equals sign or at once behind its letter, or from the next argument, unless that
one looks like an option. Letters without a value can share an argument. Except for the verbosity, no
option is given twice.
-/

namespace Slotwise.CommandLine

/-- The options of a run. -/
structure Arguments where
  /-- The path of the configuration. -/
  config : Option String := none
  /-- The name of the preset. -/
  preset : Option String := none
  /-- The directory that source roots are below. -/
  output : Option String := none
  /-- The name of the crate that gets a manifest. -/
  package : Option String := none
  /-- Whether the files are shown and not written. -/
  dryRun : Bool := false
  /-- Whether directories shared with other code get module indexes. -/
  rootIndex : Bool := false
  /-- How much is logged. -/
  verbosity : Nat := 0
deriving DecidableEq, Repr

/-- What a command line asks for. -/
inductive Invocation where
  /-- A run with these options. -/
  | run (arguments : Arguments)
  /-- A description of the options. -/
  | help
  /-- The version of the program. -/
  | version
deriving DecidableEq, Repr

/-- An option with a value. -/
inductive Setting where
  /-- The path of the configuration. -/
  | config
  /-- The name of the preset. -/
  | preset
  /-- The directory that source roots are below. -/
  | output
  /-- The name of the crate that gets a manifest. -/
  | package
deriving DecidableEq, Repr

/-- An option without a value. -/
inductive Switch where
  /-- Shows the files and does not write them. -/
  | dryRun
  /-- Asks for module indexes in directories shared with other code. -/
  | rootIndex
  /-- Asks for more to be logged. -/
  | verbose
deriving DecidableEq, Repr

/-- What the name of an option stands for. -/
inductive Meaning where
  /-- An option with a value. -/
  | setting (setting : Setting)
  /-- An option without a value. -/
  | switch (switch : Switch)
  /-- A request to describe the options. -/
  | help
  /-- A request for the version. -/
  | version
deriving DecidableEq, Repr

namespace Meaning

/-- What a word behind two dashes stands for. -/
def ofWord? : String → Option Meaning
  | "config" => some (setting .config)
  | "preset" => some (setting .preset)
  | "output" => some (setting .output)
  | "cargo-toml" => some (setting .package)
  | "dry-run" => some (switch .dryRun)
  | "root-index" => some (switch .rootIndex)
  | "verbose" => some (switch .verbose)
  | "help" => some help
  | "version" => some version
  | _ => none

/-- What a letter behind one dash stands for. -/
def ofLetter? : Char → Option Meaning
  | 'c' => some (setting .config)
  | 'p' => some (setting .preset)
  | 'o' => some (setting .output)
  | 'v' => some (switch .verbose)
  | 'h' => some help
  | 'V' => some version
  | _ => none

end Meaning

namespace Arguments

/-- A value where none was before. -/
def once? (old : Option String) (value : String) : Option (Option String) :=
  if old.isSome then none else some (some value)

/-- The options with one more setting; paths are not empty. -/
def set? (arguments : Arguments) (setting : Setting) (value : String) : Option Arguments :=
  match setting with
  | .config =>
    if value.isEmpty then none
    else (once? arguments.config value).map fun config => { arguments with config }
  | .output =>
    if value.isEmpty then none
    else (once? arguments.output value).map fun output => { arguments with output }
  | .preset => (once? arguments.preset value).map fun preset => { arguments with preset }
  | .package => (once? arguments.package value).map fun package => { arguments with package }

/-- The options with one more switch. -/
def turn? (arguments : Arguments) : Switch → Option Arguments
  | .dryRun => if arguments.dryRun then none else some { arguments with dryRun := true }
  | .rootIndex => if arguments.rootIndex then none else some { arguments with rootIndex := true }
  | .verbose => some { arguments with verbosity := arguments.verbosity + 1 }

/-- The run with these options; a configuration and a preset exclude each other. -/
def run? (arguments : Arguments) : Option Invocation :=
  if arguments.config.isSome && arguments.preset.isSome then none else some (.run arguments)

end Arguments

/-! ## Reading arguments -/

/-- What one argument amounts to. -/
inductive Step where
  /-- More options. -/
  | goOn (arguments : Arguments)
  /-- An option whose value is the next argument. -/
  | await (setting : Setting) (arguments : Arguments)
  /-- An answer without a run. -/
  | stop (invocation : Invocation)
deriving DecidableEq, Repr

/-- Whether an argument cannot be the value of an option. -/
def looksLikeOption (argument : String) : Bool :=
  match argument.toList with
  | '-' :: _ :: _ => true
  | _ => false

/-- What a word behind two dashes amounts to, with a value if an equals sign follows. -/
def wordStep? (arguments : Arguments) (word : List Char) : Option Step :=
  let name := String.ofList (word.takeWhile (· ≠ '='))
  let value : Option String :=
    match word.dropWhile (· ≠ '=') with
    | [] => none
    | _ :: rest => some (String.ofList rest)
  match Meaning.ofWord? name, value with
  | some (.setting setting), some value => (arguments.set? setting value).map .goOn
  | some (.setting setting), none => some (.await setting arguments)
  | some (.switch switch), none => (arguments.turn? switch).map .goOn
  | some .help, none => some (.stop .help)
  | some .version, none => some (.stop .version)
  | _, _ => none

/-- What letters behind one dash amount to. Behind a letter with a value, the rest is the value. -/
def letterStep? (arguments : Arguments) : List Char → Option Step
  | [] => some (.goOn arguments)
  | letter :: rest =>
    match Meaning.ofLetter? letter with
    | some (.setting setting) =>
      match rest with
      | [] => some (.await setting arguments)
      | '=' :: value => (arguments.set? setting (String.ofList value)).map .goOn
      | value => (arguments.set? setting (String.ofList value)).map .goOn
    | some (.switch switch) =>
      match arguments.turn? switch with
      | some arguments => letterStep? arguments rest
      | none => none
    | some .help => some (.stop .help)
    | some .version => some (.stop .version)
    | none => none

/-- What one argument amounts to. -/
def step? (arguments : Arguments) (argument : String) : Option Step :=
  match argument.toList with
  | '-' :: '-' :: word => wordStep? arguments word
  | '-' :: letter :: letters => letterStep? arguments (letter :: letters)
  | _ => none

/-- What arguments ask for, when `waiting` still needs its value. -/
def invocationFrom? (arguments : Arguments) :
    Option Setting → List String → Option Invocation
  | none, [] => arguments.run?
  | some _, [] => none
  | some setting, value :: rest =>
    if looksLikeOption value then none
    else
      match arguments.set? setting value with
      | some arguments => invocationFrom? arguments none rest
      | none => none
  | none, argument :: rest =>
    if argument = "--" then if rest.isEmpty then arguments.run? else none
    else
      match step? arguments argument with
      | some (.goOn arguments) => invocationFrom? arguments none rest
      | some (.await setting arguments) => invocationFrom? arguments (some setting) rest
      | some (.stop invocation) => some invocation
      | none => none

/-- What a command line asks for; nothing when it breaks a rule. -/
def invocation? (arguments : List String) : Option Invocation :=
  invocationFrom? {} none arguments

end Slotwise.CommandLine
