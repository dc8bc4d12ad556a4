import Slotwise.Codec.Fields
import Slotwise.TypeRef
/-!
# Written types and fields

The written forms of types, of their part in serialization and of fields. Types nest through their
dependencies, so reading is bounded by the depth of the document.
-/

namespace Slotwise.Codec

/-! ## Words -/

/-- The word for a type's relation to type variables. -/
def genericWord : GenericWord → String
  | .none => "none"
  | .asSuch => "as_such"
  | .wrapper => "wrapper"
  | .inVariables => "in"

/-- The relation to type variables with this word. -/
def genericWord? (text : String) : Option GenericWord :=
  [GenericWord.none, .asSuch, .wrapper, .inVariables].find? fun word => genericWord word == text

/-- The part in serialization with a serializer that may be given. -/
def serializationOf? (kind : String) (serializer : Option (Option String)) :
    Option Serialization :=
  match kind with
  | "none" => some .plain
  | "transient" => some .transient
  | "polymorphic" => some .polymorphic
  | "as_such" => serializer.map .through
  | _ => none

/-- A part in serialization: a table with its kind, or a list that starts with the kind. -/
def serialization? : Document → Option Serialization
  | .table entries => do
    let kind ← (Document.value? "kind" entries).bind text?
    serializationOf? kind
      (optional (fun name => Document.value? name entries) "serializer" text?)
  | .list [kind] => do serializationOf? (← text? kind) (some none)
  | .list [.text "as_such", serializer] => do
    return .through (← optional? text? serializer)
  | _ => none

/-- The written form of a part in serialization. -/
def writeSerialization : Serialization → Document
  | .plain => .table [("kind", .text "none")]
  | .transient => .table [("kind", .text "transient")]
  | .polymorphic => .table [("kind", .text "polymorphic")]
  | .through serializer =>
    .table [("kind", .text "as_such"), ("serializer", optionalText serializer)]

/-! ## Types -/

/-- The fields of a written type. -/
def typeNames : List String :=
  ["name", "package", "generic", "generic_in", "dependencies", "serialization"]

/-- The form of a type; `dependency?` reads the types it depends on. -/
def typeFormWith? (dialect : Dialect) (dependency? : Document → Option TypeRef)
    (document : Document) : Option TypeForm := do
  let look ← look? dialect true typeNames document
  let name ← orElse look "name" "" text?
  let package ← orElse look "package" "" text?
  let generic ← orElse look "generic" .none fun d => (word? dialect d).bind genericWord?
  let variableNames ← orElse look "generic_in" [] (listOf? text?)
  let dependencies ← orElse look "dependencies" [] (listOf? dependency?)
  let serialization ← orElse look "serialization" .plain serialization?
  return ⟨name, package, generic, variableNames, dependencies, serialization⟩

/-- A type whose dependencies nest below `bound`. -/
def typeBelow? (dialect : Dialect) : Nat → Document → Option TypeRef
  | 0, _ => none
  | bound + 1, document => do
    match TypeRef.ofForm (← typeFormWith? dialect (typeBelow? dialect bound) document) with
    | .ok type => some type
    | .error _ => none

/-- A type. -/
def type? (dialect : Dialect) (document : Document) : Option TypeRef :=
  typeBelow? dialect document.depth document

/-- The form of a type, which may list variables although it is not parametric. -/
def typeForm? (dialect : Dialect) (document : Document) : Option TypeForm :=
  typeFormWith? dialect (typeBelow? dialect document.depth) document

mutual

/-- The written form of a type. -/
def writeType : TypeRef → Document
  | .mk name package generic dependencies serialization =>
    let form := (TypeRef.mk name package generic [] serialization).toForm
    .table
      [("name", .text name), ("package", .text package),
        ("generic", .text (genericWord form.generic)), ("generic_in", texts form.variableNames),
        ("dependencies", .list (writeTypes dependencies)),
        ("serialization", writeSerialization serialization)]

/-- The written forms of several types. -/
def writeTypes : List TypeRef → List Document
  | [] => []
  | type :: rest => writeType type :: writeTypes rest

end

/-! ## Fields of declarations -/

/-- A field of a record or variant. -/
def field? (dialect : Dialect) (document : Document) : Option Field := do
  let look ← look? dialect true ["name", "type", "default_value", "modifiers", "doc"] document
  let name ← required look "name" text?
  let type ← required look "type" (type? dialect)
  let defaultValue ← optional look "default_value" text?
  let modifiers ← orElse look "modifiers" [] (listOf? text?)
  let doc ← orElse look "doc" [] (listOf? text?)
  return ⟨name, type, defaultValue, modifiers, doc⟩

/-- The written form of a field. -/
def writeField (field : Field) : Document :=
  .table
    [("name", .text field.name), ("type", writeType field.type),
      ("default_value", optionalText field.defaultValue), ("modifiers", texts field.modifiers),
      ("doc", texts field.doc)]

/-! ## Reading back -/

@[simp] theorem genericWord?_genericWord (word : GenericWord) :
    genericWord? (genericWord word) = some word := by
  cases word <;> decide

@[simp] theorem serialization?_writeSerialization (serialization : Serialization) :
    serialization? (writeSerialization serialization) = some serialization := by
  rcases serialization with _ | _ | _ | (_ | _) <;> rfl

end Slotwise.Codec
