import Slotwise.Code.Build
import Slotwise.Declaration
import Slotwise.ModelText
/-!
# Fields, type parameters and imports

What the code of records and variant sets has in common: fields with their texts read as code, the
type parameters that they bring along, and the imports of their types.
-/

namespace Slotwise.Optics

open Code Code.Node

/-- A field with its texts read as code. -/
structure FieldCode where
  /-- The name. -/
  name : String
  /-- The type. -/
  type : Node
  /-- The value used when none is supplied. -/
  default : Option Node
  /-- Documentation, further attributes and the part in serialization, in this order. -/
  attributes : List Node
deriving Repr

/-- Lines of documentation as attributes. -/
def docLines (lines : List String) : List Node :=
  lines.map fun line => docLine (" " ++ line)

namespace FieldCode

/-- The attribute for a field's part in serialization. -/
def serializationAttribute (owner : String) : Serialization → Except Failure (List Node)
  | .transient => .ok [attr false (metaList (named "serde") .round [.word "skip"])]
  | .through (some serializer) => do
    let _ ← ModelText.path owner serializer
    return [attr false (metaList (named "serde") .round
      [.word "with", .mark '=' false, .literal (Text.quoteLiteral serializer)])]
  | .plain | .polymorphic | .through none => .ok []

/-- The code of a field of `owner`. -/
def ofField (owner : String) (serializable : Bool) (field : Field) : Except Failure FieldCode := do
  let name ← ModelText.identifier owner "field name" field.name
  let type ← ModelText.type owner field.type.name
  let default ← field.defaultValue.mapM (ModelText.expression owner)
  let modifiers ← field.modifiers.mapM (ModelText.modifier owner)
  let serialization ←
    if serializable then serializationAttribute owner field.type.serialization else pure []
  return ⟨name, type, default, docLines field.doc ++ modifiers.map (attr false) ++ serialization⟩

/-- The code of several fields of `owner`. -/
def ofFields (owner : String) (serializable : Bool) (fields : List Field) :
    Except Failure (List FieldCode) :=
  fields.mapM (ofField owner serializable)

/-- The fields that have to be supplied, as parameters of a function. -/
def inputs (fields : List FieldCode) : List Node :=
  (fields.filter fun field => field.default.isNone).map fun field => input field.name field.type

/-- The fields of a new value: what is not supplied takes its default. -/
def initializers (fields : List FieldCode) : List Node :=
  fields.map fun field =>
    match field.default with
    | some value => fieldIs field.name value
    | none => named field.name

end FieldCode

/-! ## Type parameters -/

/-- The type parameters of a generated type. -/
structure TypeParameters where
  /-- The names in the order in which they appear. -/
  names : List String
deriving DecidableEq, Repr

namespace TypeParameters

/-- The texts without those that came before. -/
def firstOccurrences (texts : List String) : List String :=
  texts.foldl (fun seen text => if seen.contains text then seen else seen ++ [text]) []

/-- The type variables that the fields of `owner` bring along. -/
def ofFields (owner : String) (fields : List Field) : Except Failure TypeParameters := do
  let variableNames := firstOccurrences (fields.flatMap fun field => field.type.variableNames)
  return ⟨← variableNames.mapM (ModelText.identifier owner "type variable")⟩

/-- The name followed by as many underscores as it takes to differ from `taken`; as many steps as
there are names taken suffice, since each step tries another name. -/
def freshAmong (taken : List String) (name : String) : Nat → String
  | 0 => name
  | steps + 1 => if taken.contains name then freshAmong taken (name ++ "_") steps else name

/-- A name that is no type parameter, made of `stem`. -/
def fresh (parameters : TypeParameters) (stem : String) : String :=
  freshAmong parameters.names stem parameters.names.length

/-- The declaration of the type parameters; nothing when there are none. -/
def declared (parameters : TypeParameters) : Option Node :=
  if parameters.names.isEmpty then none else some (Node.parameters parameters.names)

/-- The declaration of the type parameters for values that borrow nothing. -/
def declaredOwned (parameters : TypeParameters) : Option Node :=
  if parameters.names.isEmpty then none
  else
    some (generics
      (parameters.names.map fun name => parameter (named name) [Node.lifetime "'static"] none)
      false)

/-- The type `name` applied to the type parameters. -/
def applyTo (parameters : TypeParameters) (name : String) : Node :=
  if parameters.names.isEmpty then named name else appliedTo name parameters.names

end TypeParameters

/-! ## Imports -/

mutual

/-- The texts of the imports that a type needs. A type variable needs none of its own. -/
def importTexts : TypeRef → List String
  | .mk name package generic dependencies serialization =>
    (if package = "" ∨ generic = .variable then []
      else [package ++ "::" ++ (TypeRef.mk name package generic [] serialization).baseName]) ++
      importTextsAll dependencies

/-- The texts of the imports that several types need. -/
def importTextsAll : List TypeRef → List String
  | [] => []
  | type :: rest => importTexts type ++ importTextsAll rest

end

/-- The import of a path. -/
def importOfPath : Node → Node
  | path rooted segments =>
    useItem rooted (importSteps (segments.map fun
      | .segment name _ => name
      | _ => ""))
  | other => other

/-- The imports of the packaged types that the types of `owner` refer to, in order and each once. -/
def typeImports (owner : String) (types : List TypeRef) : Except Failure (List Node) := do
  let paths ← (Ordered.sortedTexts (importTextsAll types)).mapM (ModelText.path owner)
  return paths.map importOfPath

end Slotwise.Optics
