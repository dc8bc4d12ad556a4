import Slotwise.CommandLine
/-!
# Program

The command line as a program: reading the configuration, taking the steps of a run on the real disk,
and showing what the run shows. What is read, done and shown is decided elsewhere.
-/

open Slotwise

/-- The reason behind an error of the operating system. -/
def diskError? : IO.Error → Option DiskError
  | .noFileOrDirectory .. => some .missing
  | .alreadyExists .. => some .exists
  | .resourceBusy .. => some .busy
  | .invalidArgument .. => some .invalid
  | .inappropriateType _ code _ => some (if code = 21 then .isDirectory else .notDirectory)
  | _ => none

/-- What an action on the disk fails with; an error of another sort is passed on. -/
def attempt (failure : DiskError → Failure) (action : IO Unit) : IO (Option Failure) := do
  try
    action
    return none
  catch error =>
    match diskError? error with
    | some cause => return some (failure cause)
    | none => throw error

/-- Writes a file on disk. -/
def writeFile (path : Slotwise.FilePath) (content : String) : IO (Option Failure) := do
  let temporary := Disk.temporary path
  let parent := (path.parent?.map (·.text)).getD ""
  let made ← attempt (.unwritable parent) do
    if !parent.isEmpty then IO.FS.createDirAll parent
  if made.isSome then return made
  let written ← attempt (.unwritable temporary.text) (IO.FS.writeFile temporary.text content)
  if written.isSome then return written
  attempt (.unwritable path.text) (IO.FS.rename temporary.text path.text)

/-- Removes a directory on disk, if it is there. -/
def clearDirectory (directory : Slotwise.FilePath) : IO (Option Failure) := do
  match ← attempt (.unclearable directory.text) (IO.FS.removeDirAll directory.text) with
  | some (.unclearable _ .missing) => return none
  | result => return result

/-- Takes a step on disk. -/
def takeStep : DiskStep → IO (Option Failure)
  | .clear directory => clearDirectory directory
  | .write path content => writeFile path content

/-- Takes steps on disk until one fails. -/
def takeSteps : List DiskStep → IO (Option Failure)
  | [] => return none
  | step :: rest => do
    match ← takeStep step with
    | some failure => return some failure
    | none => takeSteps rest

/-- The text of a file on disk. -/
def readText (path : String) : IO (Except DiskError String) := do
  try
    return .ok (← IO.FS.readFile path)
  catch error => return .error ((diskError? error).getD .notText)

/-- Shows how a run ended, and answers its code. -/
def finish (result : Except Failure (List String)) : IO UInt32 := do
  let output ← IO.getStderr
  match result with
  | .ok lines =>
    for line in lines do output.putStrLn line
    return 0
  | .error failure =>
    output.putStrLn ("Error: " ++ failure.message)
    return failure.exitCode.toUInt32

/-- Takes and shows a run. -/
def perform (arguments : CommandLine.Arguments) : IO UInt32 := do
  let source ← match arguments.config with
    | some path => readText path
    | none => pure (.error .missing)
  match arguments.run fun _ => source with
  | .error failure => finish (.error failure)
  | .ok run =>
    (← IO.getStdout).putStr run.shown
    match ← takeSteps run.steps with
    | some failure => finish (.error failure)
    | none => finish (.ok run.summary)

/-- The program. -/
def main (arguments : List String) : IO UInt32 := do
  match CommandLine.invocation? arguments with
  | some (.run arguments) => perform arguments
  | some .help =>
    (← IO.getStdout).putStr CommandLine.helpText
    return 0
  | some .version =>
    (← IO.getStdout).putStrLn (CommandLine.programName ++ " " ++ CommandLine.programVersion)
    return 0
  | none =>
    (← IO.getStderr).putStr CommandLine.helpText
    return 2
