import Slotwise.Document
/-!
# Tables of configurations

A configuration names its tables in headers and dotted keys, in any order, but defines each only
once. The tree remembers how every table came about: a table that was only passed through may still
be defined, one that dotted keys made can only be extended by dotted keys.

Main statement: a definition that is taken can be looked up (`find?_set`).
-/

namespace Slotwise.Configuration

/-- What a name in a table stands for. -/
inductive Item where
  /-- A value, which cannot be extended. -/
  | value (document : Document)
  /-- A table: whether it has only been passed through, and whether dotted keys made it. -/
  | table (passed dotted : Bool) (entries : List (String × Item))
  /-- A list of tables, of which the last one can be extended. -/
  | tables (elements : List (List (String × Item)))
deriving Repr

/-- The entries of a table. -/
abbrev Entries := List (String × Item)

namespace Entries

/-- The item of a name. -/
def find? (name : String) (entries : Entries) : Option Item :=
  entries.lookup name

/-- The entries with the item of a name set. -/
def set (name : String) (item : Item) : Entries → Entries
  | [] => [(name, item)]
  | (n, i) :: rest => if n = name then (name, item) :: rest else (n, i) :: set name item rest

theorem find?_set (name : String) (item : Item) (entries : Entries) :
    (entries.set name item).find? name = some item := by
  unfold find?
  induction entries with
  | nil => simp [set]
  | cons pair rest ih =>
    obtain ⟨n, i⟩ := pair
    rw [set]
    split
    · simp
    · next h =>
      have : (name == n) = false := by simpa using Ne.symm h
      simp [List.lookup_cons, ih, this]

/-- Changes the table at the end of a path; tables on the way are made where they are missing. A
path of a dotted key cannot pass through a table that has been defined. The change is told whether
dotted keys made the table. -/
def change (dotted : Bool) (f : Bool → Entries → Option Entries) :
    List String → Bool → Entries → Option Entries
  | [], own, entries => f own entries
  | name :: path, _, entries =>
    match entries.find? name with
    | none => do
      let below ← change dotted f path dotted []
      return entries.set name (.table true dotted below)
    | some (.table passed made below) => do
      if dotted && !passed then failure
      return entries.set name (.table passed made (← change dotted f path made below))
    | some (.tables elements) => do
      let last ← change dotted f path false (elements.getLast?.getD [])
      return entries.set name (.tables (elements.dropLast ++ [last]))
    | some (.value _) => none

/-- Adds a value under a dotted key. -/
def insert (path : List String) (name : String) (document : Document) (own : Bool)
    (entries : Entries) : Option Entries :=
  change true (fun made target =>
    if made == path.isEmpty then none
    else
      match target.find? name with
      | none => some (target.set name (.value document))
      | some _ => none) path own entries

/-- Defines a table. It may have been passed through before, but not made by dotted keys. -/
def define (path : List String) (name : String) (entries : Entries) : Option Entries :=
  change false (fun _ target =>
    match target.find? name with
    | none => some (target.set name (.table false false []))
    | some (.table true false below) => some (target.set name (.table false false below))
    | some _ => none) path false entries

/-- Adds a table to a list of tables. -/
def append (path : List String) (name : String) (entries : Entries) : Option Entries :=
  change false (fun _ target =>
    match target.find? name with
    | none => some (target.set name (.tables [[]]))
    | some (.tables elements) => some (target.set name (.tables (elements ++ [[]])))
    | some _ => none) path false entries

end Entries

mutual

/-- The document of an item. -/
def Item.toDocument : Item → Document
  | .value document => document
  | .table _ _ entries => .table (entriesToDocuments entries)
  | .tables elements => .list (elementsToDocuments elements)

/-- The documents of several entries. -/
def entriesToDocuments : List (String × Item) → List (String × Document)
  | [] => []
  | (name, item) :: rest => (name, item.toDocument) :: entriesToDocuments rest

/-- The documents of several tables. -/
def elementsToDocuments : List (List (String × Item)) → List Document
  | [] => []
  | entries :: rest => .table (entriesToDocuments entries) :: elementsToDocuments rest

end

end Slotwise.Configuration
