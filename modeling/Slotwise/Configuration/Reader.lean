import Slotwise.Codec.Request
import Slotwise.Configuration.Scalar
import Slotwise.Configuration.Tree
import Slotwise.Failure
/-!
# Reading configurations

Values with their lists and inline tables, the lines of a configuration, and requests that are
written as configurations.
-/

namespace Slotwise.Configuration

open Scanner

/-! ## Values -/

/-- The rest of a list behind an item or the opening bracket. -/
def listRest (value : Scanner Document) : Scanner (List Document) :=
  repeated do
    gap
    if ← exactly? "]" then return none
    let item ← value
    gap
    if !(← exactly? ",") then require (← startsWith "]")
    return some [item]

/-- The key and value of an entry, with the key's last step apart. -/
def entry (value : Scanner Document) : Scanner (List String × String × Document) := do
  let path ← key
  exactly "="
  spaces
  match path.getLast? with
  | some name => return (path.dropLast, name, ← value)
  | none => failure

/-- The entries of an inline table behind the opening bracket. -/
def inlineEntries (value : Scanner Document) : Scanner Entries := do
  spaces
  if ← exactly? "\x7d" then return []
  let first ← entry value
  spaces
  let rest ← repeated do
    if ← exactly? "\x7d" then return none
    exactly ","
    let next ← entry value
    spaces
    return some [next]
  (first :: rest).foldlM (fun entries (path, name, document) =>
    Entries.insert path name document false entries) []

/-- A value with at most so many levels of lists and tables. -/
def value : Nat → Scanner Document
  | 0 => failure
  | depth + 1 => do
    if ← exactly? "[" then
      require (depth > 0)
      return .list (← listRest (value depth))
    else if ← exactly? "\x7b" then
      require (depth > 0)
      return .table (entriesToDocuments (← inlineEntries (value depth)))
    else scalar

/-! ## Lines -/

/-- What has been read: the tables so far, and the path of the table that lines belong to. -/
structure State where
  /-- The tables so far. -/
  root : Entries
  /-- The steps to the table of the last header. -/
  header : List String

/-- A line that starts a table or an element of a list of tables. -/
def headerLine (state : State) : Scanner State := do
  let element ← exactly? "[["
  if !element then exactly "["
  let path ← key
  exactly (if element then "]]" else "]")
  restOfLine
  let name := path.getLast?.getD ""
  let add := if element then Entries.append else Entries.define
  return ⟨← add path.dropLast name state.root, path⟩

/-- A line that gives a value. -/
def entryLine (state : State) : Scanner State := do
  let (path, name, document) ← entry (value nestingLimit)
  restOfLine
  let root ← Entries.change false (fun own entries =>
    Entries.insert path name document own entries) state.header false state.root
  return ⟨root, state.header⟩

/-- The lines of a configuration, at most `bound` of them. -/
def linesBelow : Nat → State → Scanner State
  | 0, _ => failure
  | bound + 1, state => do
    spaces
    match ← peek? with
    | none => return state
    | some c =>
      if c = '#' || c = '\n' || c = '\r' then
        restOfLine
        linesBelow bound state
      else if c = '[' then linesBelow bound (← headerLine state)
      else linesBelow bound (← entryLine state)

/-- The document of a configuration. A mark of the byte order may stand before it. -/
def document? (text : String) : Option Document :=
  let cs := match text.toList with
    | '\ufeff' :: rest => rest
    | cs => cs
  match linesBelow (cs.length + 1) ⟨[], []⟩ cs with
  | some (state, []) => some (.table (entriesToDocuments state.root))
  | _ => none

/-- The request of a configuration; a failure names where the text is from. -/
def request (text origin : String) : Except Failure Request :=
  match (document? text).bind (Codec.request? .configuration) with
  | some request => .ok request
  | none => .error (.malformedRequest origin)

end Slotwise.Configuration
