import Slotwise.Document
/-!
# Fields of a written value

How a value of the model is written as a document: mostly as a table with an entry for each field,
or as a list of the fields' values in order, where trailing fields may be missing. Reading answers
nothing when the document does not fit; which fault was met is not told.

Main statements: a written table is read back field by field (`look_table`).
-/

namespace Slotwise.Codec

/-- What differs between the notations in which documents are written. -/
structure Dialect where
  /-- Whether a list of field values may go on behind the last field. -/
  surplus : Bool
  /-- Whether the parts of a selection may have entries that stand for no field. -/
  openParts : Bool
  /-- Whether the parts of a selection may be lists of field values. -/
  listedParts : Bool
  /-- Whether a word may be written as the only entry of a table, with this value. -/
  besideWord : Document → Bool

/-- The notation in which values are exchanged between programs. -/
def Dialect.exchange : Dialect :=
  ⟨false, true, false, fun | .null => true | _ => false⟩

/-- The notation in which users write configurations. -/
def Dialect.configuration : Dialect :=
  ⟨true, false, true, fun | .table [] | .list [] => true | _ => false⟩

/-! ## Single values -/

/-- A text. -/
def text? : Document → Option String
  | .text value => some value
  | _ => none

/-- A truth value. -/
def flag? : Document → Option Bool
  | .flag value => some value
  | _ => none

/-- The numbers that a field can hold are below this one. -/
def numberBound : Nat := Nat.pow 2 64

/-- A natural number that a field can hold. -/
def number? : Document → Option Nat
  | .natural value => if value < numberBound then some value else none
  | _ => none

/-- A value that may be absent. -/
def optional? {α : Type} (read : Document → Option α) : Document → Option (Option α)
  | .null => some none
  | document => (read document).map some

/-- A list of values. -/
def listOf? {α : Type} (read : Document → Option α) : Document → Option (List α)
  | .list items => items.mapM read
  | _ => none

/-- A table of texts. -/
def textTable? : Document → Option (List (String × String))
  | .table entries => entries.mapM fun (name, value) => (text? value).map (name, ·)
  | _ => none

/-- A word, by itself or as the only entry of a table. -/
def word? (dialect : Dialect) : Document → Option String
  | .text word => some word
  | .table [(word, value)] => if dialect.besideWord value then some word else none
  | _ => none

/-! ## Fields -/

/-- The written values of fields by name. -/
abbrev Look := String → Option Document

/-- Whether every entry stands for a field. -/
def allKnown (names : List String) (entries : List (String × Document)) : Bool :=
  entries.all fun entry => names.contains entry.1

/-- The fields of a written value. In a closed table every entry stands for a field. -/
def look? (dialect : Dialect) (closed : Bool) (names : List String) : Document → Option Look
  | .table entries =>
    if !closed || allKnown names entries then some fun name => Document.value? name entries
    else none
  | .list items =>
    if dialect.surplus || items.length ≤ names.length then
      some fun name => (names.zip items).lookup name
    else none
  | _ => none

/-- A field that must be given. -/
def required {α : Type} (look : Look) (name : String) (read : Document → Option α) : Option α :=
  (look name).bind read

/-- A field with a value for when it is missing. -/
def orElse {α : Type} (look : Look) (name : String) (fallback : α)
    (read : Document → Option α) : Option α :=
  match look name with
  | none => some fallback
  | some document => read document

/-- A field that may be missing or absent. -/
def optional {α : Type} (look : Look) (name : String) (read : Document → Option α) :
    Option (Option α) :=
  orElse look name none (optional? read)

/-! ## Writing -/

/-- A list of texts. -/
def texts (values : List String) : Document :=
  .list (values.map .text)

/-- A text that may be absent. -/
def optionalText : Option String → Document
  | none => .null
  | some value => .text value

theorem look_table {dialect : Dialect} {closed : Bool} {names : List String}
    {entries : List (String × Document)} (h : allKnown names entries = true) :
    look? dialect closed names (.table entries) =
      some fun name => Document.value? name entries := by
  simp [look?, h]

@[simp] theorem text?_text (value : String) : text? (.text value) = some value := rfl

@[simp] theorem optional?_optionalText (value : Option String) :
    optional? text? (optionalText value) = some value := by
  cases value <;> rfl

@[simp] theorem listOf?_texts (values : List String) :
    listOf? text? (texts values) = some values := by
  have h : (values.map Document.text).mapM text? = some values := by
    induction values with
    | nil => rfl
    | cons v vs ih => simp [List.mapM_cons, ih]
  simpa [listOf?, texts] using h

end Slotwise.Codec
