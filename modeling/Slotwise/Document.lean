/-!
# Documents

The values that configurations are written with, whatever the notation: texts, natural numbers,
truth values, lists and tables. What no field of the model can hold is one value of its own.
-/

namespace Slotwise

/-- A value of a configuration. -/
inductive Document where
  /-- The absence of a value. -/
  | null
  /-- A truth value. -/
  | flag (value : Bool)
  /-- A natural number, written without fraction and exponent. -/
  | natural (value : Nat)
  /-- A number or date that is no natural number. -/
  | other
  /-- A text. -/
  | text (value : String)
  /-- A list. -/
  | list (items : List Document)
  /-- A table with named entries. -/
  | table (entries : List (String × Document))
deriving Repr

namespace Document

mutual

/-- How deeply lists and tables are nested. -/
def depth : Document → Nat
  | list items => depthList items + 1
  | table entries => depthEntries entries + 1
  | _ => 1

/-- The greatest depth of several values. -/
def depthList : List Document → Nat
  | [] => 0
  | item :: rest => max item.depth (depthList rest)

/-- The greatest depth of the values of several entries. -/
def depthEntries : List (String × Document) → Nat
  | [] => 0
  | (_, value) :: rest => max value.depth (depthEntries rest)

end

/-- The first entry with this name. -/
def value? (name : String) (entries : List (String × Document)) : Option Document :=
  entries.lookup name

/-- The entries with the one of this name set. -/
def setEntry (name : String) (value : Document) :
    List (String × Document) → List (String × Document)
  | [] => [(name, value)]
  | (n, v) :: rest =>
    if n = name then (name, value) :: rest else (n, v) :: setEntry name value rest

theorem value?_setEntry (name : String) (value : Document) (entries : List (String × Document)) :
    value? name (setEntry name value entries) = some value := by
  unfold value?
  induction entries with
  | nil => simp [setEntry]
  | cons pair rest ih =>
    obtain ⟨n, v⟩ := pair
    rw [setEntry]
    split
    · simp
    · next h =>
      have : (name == n) = false := by simpa using Ne.symm h
      simp [List.lookup_cons, ih, this]

end Document

end Slotwise
