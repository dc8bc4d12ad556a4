import Slotwise.Failure
import Slotwise.Kind
import Slotwise.Location
import Slotwise.Text.Identifier
import Slotwise.Text.LetterCase
/-!
# Names

How slots, types, functions, modules and packages of generated code are called. All generators ask
here, so slot `i` of a product, a sum, a lens or a prism always bears the same name. Lists of slot
names run from the highest slot down to the first.
-/

namespace Slotwise.Naming

/-! ## Slots -/

/-- The names `base` with the numbers from `dimension` down to `first`. -/
def slotNames (base : String) (dimension first : Nat) : List String :=
  (List.range' first (dimension + 1 - first)).reverse.map fun i => base ++ toString i

/-- The names `base` with the numbers from `dimension` down to 1, slot `target` under another
base. -/
def slotNamesWith (base : String) (dimension target : Nat) (other : String) : List String :=
  (List.range' 1 dimension).reverse.map fun i =>
    (if i = target then other else base) ++ toString i

/-- The numbers of the slots of a dimension, from the highest down to 1. -/
def slotsDown (dimension : Nat) : List Nat :=
  (List.range' 1 dimension).reverse

/-- The numbers of the slots of a dimension, from 1 up. -/
def slotsUp (dimension : Nat) : List Nat :=
  List.range' 1 dimension

/-- The product type of a dimension. -/
def productType (dimension : Nat) : String := s!"Product{dimension}"

/-- The sum type of a dimension. -/
def sumType (dimension : Nat) : String := s!"Sum{dimension}"

/-- The component of a product in a slot. -/
def factor (slot : Nat) : String := s!"factor{slot}"

/-- The case of a sum in a slot. -/
def summand (slot : Nat) : String := s!"Summand{slot}"

/-- The method that maps one slot. -/
def mapSlot (slot : Nat) : String := s!"map{slot}"

/-- The function that takes one component out of a product. -/
def projection (dimension slot : Nat) : String := s!"pi{dimension}_{slot}"

/-- The function that puts a value into one case of a sum. -/
def injection (dimension slot : Nat) : String := s!"iota{dimension}_{slot}"

/-- How a slot is referred to. -/
inductive Access where
  /-- By value. -/
  | owned
  /-- By shared reference. -/
  | shared
  /-- By exclusive reference. -/
  | exclusive
deriving DecidableEq, Repr

/-- What is written before the name of a slot. -/
def Access.mark : Access → String
  | owned => ""
  | shared => "&"
  | exclusive => "&mut "

/-! ## Modules -/

/-- The file module of a product. -/
def productModule (dimension : Nat) : String := s!"product_{dimension}"

/-- The file module of a sum. -/
def sumModule (dimension : Nat) : String := s!"sum_{dimension}"

/-- The file module of the trait that marks products. -/
def productMarkerModule : String := "product"

/-- The file module of the trait that marks sums. -/
def sumMarkerModule : String := "sum"

/-- The file module of the functions on setters. -/
def functionsModule : String := "functions"

/-- The package with its last segment replaced by the folder of `kind` if it is a folder of some
kind, and with that folder appended otherwise. -/
def derivePackage (kind : Kind) (package : String) : String :=
  match kind.folder? with
  | none => package
  | some folder =>
    let segments := ModulePath.segments package
    let base :=
      if Kind.all.any (fun other => other.folder?.isSome && other.folder? == segments.getLast?) then
        segments.dropLast
      else segments
    ModulePath.ofSegments (base ++ [folder])

/-- The place of the package of `kind` beside a place. -/
def sibling (place : Place) (kind : Kind) : Place :=
  place.withPackage (derivePackage kind place.package)

/-- The place of a record or variant set, which keeps the package it declares. -/
def opticsPlace (kind : Kind) (location : Location) (options : OutputOptions) : Place :=
  location.resolve options (kind.folder?.getD "")

/-! ## Words -/

/-- The name with an underscore before every capital that follows a small letter or a digit, in
small letters. `afterSmall` says whether such a character came before. -/
def snakeChars (afterSmall : Bool) : List Char → List Char
  | [] => []
  | c :: rest =>
    if Text.isUpper c then
      (if afterSmall then ['_'] else []) ++ Text.toLower c ++ snakeChars false rest
    else c :: snakeChars (Text.isLower c || c.isDigit) rest

/-- The name in small letters with underscores between its words. -/
def snakeCase (name : String) : String :=
  String.ofList (snakeChars false name.toList)

/-- The name with its first character in upper case. -/
def capitalize (name : String) : String :=
  match name.toList with
  | [] => ""
  | c :: rest => String.ofList (Text.toUpper c ++ rest)

/-- The file module of a key group. -/
def keysModule (stem : String) : String :=
  snakeCase stem ++ "_keys"

/-- The setter of a field. -/
def setter (field : String) (suffix : Option String) : String :=
  field ++ suffix.getD ""

/-- The setter of a field of one variant. -/
def variantSetter (field variant : String) (suffix : Option String) : String :=
  field ++ "_" ++ snakeCase variant ++ suffix.getD ""

/-! ## Identifiers of generated code -/

/-- The words that cannot be written with a raw mark. -/
def unrawWords : List String :=
  ["_", "self", "Self", "super", "crate"]

/-- Whether a text can stand as an identifier in generated code, keywords included. -/
def isLegal (text : String) : Bool :=
  match text.toList with
  | 'r' :: '#' :: rest => Text.isIdentifier rest && !unrawWords.contains (String.ofList rest)
  | cs => Text.isIdentifier cs

/-- The text as an identifier of generated code, refused when it is none. -/
def legal (text : String) : Except Failure String :=
  if isLegal text then .ok text else .error (.illegalName text)

/-- The identifier without its raw mark. -/
def withoutRawMark (identifier : String) : String :=
  match identifier.toList with
  | 'r' :: '#' :: rest => String.ofList rest
  | _ => identifier

end Slotwise.Naming
