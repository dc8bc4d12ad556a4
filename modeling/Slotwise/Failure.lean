import Slotwise.ModelError
/-!
# Failures

Everything that can go wrong between reading a request and writing its files: the causes as a type,
and their wording in one place.
-/

namespace Slotwise

/-- Why the operating system refused an operation on a path. -/
inductive DiskError where
  /-- There is no such entry. -/
  | missing
  /-- A file stands where a directory was to be made. -/
  | exists
  /-- A step of the path is not a directory. -/
  | notDirectory
  /-- A directory stands where a file was expected. -/
  | isDirectory
  /-- A file's content is not text. -/
  | notText
  /-- The path ends in a dot where a name was needed to move a file there. -/
  | busy
  /-- The path ends in a dot where a name was needed to remove a directory. -/
  | invalid
deriving DecidableEq, Repr

/-- The operating system's wording. -/
def DiskError.message : DiskError → String
  | missing => "No such file or directory (os error 2)"
  | .exists => "File exists (os error 17)"
  | notDirectory => "Not a directory (os error 20)"
  | isDirectory => "Is a directory (os error 21)"
  | notText => "stream did not contain valid UTF-8"
  | busy => "Device or resource busy (os error 16)"
  | invalid => "Invalid argument (os error 22)"

/-- Why a run ends without its files. -/
inductive Failure where
  /-- The model breaks one of its own rules. -/
  | model (error : ModelError)
  /-- A base field uses a type variable that no variant carries. -/
  | foreignVariable (owner field variableName : String)
  /-- A key group has no keys. -/
  | keylessGroup (stem : String)
  /-- The command line names a preset that does not exist. -/
  | unknownPreset (name : String) (available : List String)
  /-- The command line names neither a configuration nor a preset. -/
  | nothingToGenerate
  /-- The configuration cannot be read from disk. -/
  | unreadableRequest (path : String) (cause : DiskError)
  /-- The configuration is not in its format. -/
  | malformedRequest (path : String)
  /-- A variant overrides what is not a base field. -/
  | overrideNotInParent (owner variant field : String)
  /-- A variant overrides a base field without a field of its own. -/
  | overrideNotInVariant (owner variant field : String)
  /-- A variant neither overrides a base field nor gives its value. -/
  | missingBaseValue (owner variant field : String)
  /-- A field name has two types in one variant set. -/
  | sharedTypeClash (owner field first second : String)
  /-- A record has no fields. -/
  | emptyRecord (owner : String)
  /-- A variant set has fewer than two variants. -/
  | tooFewVariants (owner : String) (count : Nat)
  /-- A field name is declared twice. -/
  | duplicateField (owner field : String)
  /-- A name would be generated twice in one scope. -/
  | duplicateName (owner name scope : String)
  /-- Two artifacts would be written to one path. -/
  | clashingFiles (first second path : String)
  /-- A key group is declared twice with different counts. -/
  | conflictingKeyGroup (stem : String) (first second : Nat)
  /-- A text of the model is not what it should be. -/
  | invalidText (owner expected text : String)
  /-- A text of the model is a word that is reserved although it reads as an identifier. -/
  | reservedText (owner expected text : String)
  /-- A name built for generated code is not an identifier. -/
  | illegalName (text : String)
  /-- The generated code cannot be read back. -/
  | invalidCode
  /-- A file cannot be written. -/
  | unwritable (path : String) (cause : DiskError)
  /-- A directory cannot be cleared. -/
  | unclearable (path : String) (cause : DiskError)
deriving DecidableEq, Repr

namespace Failure

/-- The name of the kind of failure. -/
def kind : Failure → String
  | model error => error.kind
  | foreignVariable .. | keylessGroup _ | unknownPreset .. | nothingToGenerate => "ConfigError"
  | unreadableRequest .. => "ConfigRead"
  | malformedRequest _ => "ConfigParse"
  | overrideNotInParent .. => "OverrideNotInParent"
  | overrideNotInVariant .. => "OverrideNotInVariant"
  | missingBaseValue .. => "MissingBaseValue"
  | sharedTypeClash .. => "SharedParameterTypeClash"
  | emptyRecord _ => "EmptyRecord"
  | tooFewVariants .. => "TooFewVariants"
  | duplicateField .. | duplicateName .. | clashingFiles .. => "DuplicateDeclaration"
  | conflictingKeyGroup .. => "ConflictingKeyGroup"
  | invalidText .. | reservedText .. => "InvalidSyntax"
  | illegalName _ => "panic"
  | invalidCode => "CodeGenError"
  | unwritable .. => "WriteError"
  | unclearable .. => "ClearError"

/-- The message shown to the user. The wording of what is wrong with a text, a configuration file or
generated code is left open; the message then names only the place. -/
def message : Failure → String
  | model error => error.message
  | foreignVariable owner field variableName =>
    s!"Invalid configuration: Base field '{field}' of '{owner}' uses type variable " ++
      s!"'{variableName}', which no variant field carries"
  | keylessGroup stem => s!"Invalid configuration: Key group '{stem}' declares no keys"
  | unknownPreset name available =>
    s!"Invalid configuration: Unknown preset: '{name}'. Available presets: " ++
      ", ".intercalate available
  | nothingToGenerate => "Invalid configuration: Either --config or --preset is required"
  | unreadableRequest path cause =>
    s!"Failed to read configuration '{path}': " ++ cause.message
  | malformedRequest path => s!"Failed to parse configuration '{path}'"
  | overrideNotInParent owner variant field =>
    s!"Variant '{variant}' of '{owner}' overrides '{field}', which is not a field of '{owner}'"
  | overrideNotInVariant owner variant field =>
    s!"Variant '{variant}' of '{owner}' overrides '{field}' but declares no such field"
  | missingBaseValue owner variant field =>
    s!"Variant '{variant}' of '{owner}' supplies no value for base field '{field}': " ++
      "override it or add a default value"
  | sharedTypeClash owner field first second =>
    s!"Field '{field}' of '{owner}' is typed inconsistently across variants: " ++
      s!"'{first}' and '{second}'"
  | emptyRecord owner => s!"Record '{owner}' declares no fields"
  | tooFewVariants owner count =>
    s!"Variant set '{owner}' declares {count} variant(s); at least 2 are required"
  | duplicateField owner field =>
    s!"Duplicate declaration '{owner}.{field}': field is declared twice"
  | duplicateName owner name scope =>
    s!"Duplicate declaration '{owner}::{name}': generated twice as {scope}"
  | clashingFiles first second path =>
    s!"Duplicate declaration '{second}': '{first}' and '{second}' would both be written to {path}"
  | conflictingKeyGroup stem first second =>
    s!"Key group '{stem}' is declared with counts {first} and {second} at the same location"
  | invalidText owner expected text => s!"Invalid {expected} `{text}` in '{owner}'"
  | reservedText owner expected text =>
    s!"Invalid {expected} `{text}` in '{owner}': `{text}` is a reserved keyword"
  | illegalName text => s!"`{text}` is not an identifier"
  | invalidCode => "Code generation failed"
  | unwritable path cause => s!"Failed to write output file '{path}': " ++ cause.message
  | unclearable path cause => s!"Failed to clear output directory '{path}': " ++ cause.message

end Failure

end Slotwise
