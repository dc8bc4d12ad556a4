import Slotwise.ModelError
import Slotwise.Text.Blank
/-!
# Type references and fields

The types that fields of records and variants refer to. A type is kept as the text the user wrote;
beside it stand its package, its relation to type variables, the types it depends on and the part
it takes in serialization.

Main statement: reading a type's written form back is exact, and fails just when variables are
listed for a type that is not parametric (`ofForm_toForm`, `ofForm_eq_error_iff`).
-/

namespace Slotwise

/-- How a type relates to type variables. -/
inductive Generic where
  /-- A concrete type. -/
  | concrete
  /-- The type is itself a type variable. -/
  | variable
  /-- A generic container of concrete types. -/
  | wrapper
  /-- A type parametric in the listed variables. -/
  | parametric (variableNames : List String)
deriving DecidableEq, Repr

/-- How a field takes part in serialization. -/
inductive Serialization where
  /-- Through the type's own implementation. -/
  | plain
  /-- Not at all. -/
  | transient
  /-- As a member of a closed hierarchy, with a type tag. -/
  | polymorphic
  /-- Through the module at the given path, or like `plain` when none is given. -/
  | through (serializer : Option String)
deriving DecidableEq, Repr

/-- A type that a field refers to. -/
inductive TypeRef where
  /-- The type as written, its package for imports (empty for none), and the rest. -/
  | mk (name package : String) (generic : Generic) (dependencies : List TypeRef)
      (serialization : Serialization)
deriving Repr

/-- The words for the relation to type variables in a configuration. -/
inductive GenericWord where
  /-- A concrete type. -/
  | none
  /-- A type variable. -/
  | asSuch
  /-- A generic container of concrete types. -/
  | wrapper
  /-- A type parametric in separately listed variables. -/
  | inVariables
deriving DecidableEq, Repr

/-- A type in the form in which configurations write it, with the variables in a list of their
own. -/
structure TypeForm where
  /-- The type as written. -/
  name : String
  /-- The package for imports, empty for none. -/
  package : String
  /-- The relation to type variables. -/
  generic : GenericWord
  /-- The listed type variables. -/
  variableNames : List String
  /-- Types that need imports of their own. -/
  dependencies : List TypeRef
  /-- The part taken in serialization. -/
  serialization : Serialization
deriving Repr

namespace TypeRef

/-- The type as written. -/
def name : TypeRef → String
  | mk name _ _ _ _ => name

/-- The package for imports, empty for none. -/
def package : TypeRef → String
  | mk _ package _ _ _ => package

/-- The relation to type variables. -/
def generic : TypeRef → Generic
  | mk _ _ generic _ _ => generic

/-- The types that need imports of their own. -/
def dependencies : TypeRef → List TypeRef
  | mk _ _ _ dependencies _ => dependencies

/-- The part taken in serialization. -/
def serialization : TypeRef → Serialization
  | mk _ _ _ _ serialization => serialization

/-- A concrete type without package. -/
def named (name : String) : TypeRef :=
  mk name "" .concrete [] .plain

/-- A type variable. -/
def typeVariable (name : String) : TypeRef :=
  mk name "" .variable [] .plain

/-- The type in another package. -/
def inPackage (type : TypeRef) (package : String) : TypeRef :=
  mk type.name package type.generic type.dependencies type.serialization

/-- The type with another relation to type variables. -/
def withGeneric (type : TypeRef) (generic : Generic) : TypeRef :=
  mk type.name type.package generic type.dependencies type.serialization

/-- The type with one more dependency. -/
def dependsOn (type dependency : TypeRef) : TypeRef :=
  mk type.name type.package type.generic (type.dependencies ++ [dependency]) type.serialization

/-- The type with another part in serialization. -/
def withSerialization (type : TypeRef) (serialization : Serialization) : TypeRef :=
  mk type.name type.package type.generic type.dependencies serialization

/-- The name without generic arguments: what stands before the first `<`, without blanks. -/
def baseName (type : TypeRef) : String :=
  String.ofList (Text.trimmed (type.name.toList.takeWhile (· ≠ '<')))

/-- The type variables that the type brings into its owner. -/
def variableNames (type : TypeRef) : List String :=
  match type.generic with
  | .concrete | .wrapper => []
  | .variable => [type.name]
  | .parametric variableNames => variableNames

/-- Whether the type is itself a type variable. -/
def isVariable (type : TypeRef) : Bool :=
  type.generic == .variable

/-- The type read from its written form. -/
def ofForm (form : TypeForm) : Except ModelError TypeRef :=
  let withGeneric (generic : Generic) : TypeRef :=
    mk form.name form.package generic form.dependencies form.serialization
  match form.generic, form.variableNames with
  | .inVariables, variableNames => .ok (withGeneric (.parametric variableNames))
  | _, v :: vs => .error (.genericMismatch form.name (v :: vs))
  | .none, [] => .ok (withGeneric .concrete)
  | .asSuch, [] => .ok (withGeneric .variable)
  | .wrapper, [] => .ok (withGeneric .wrapper)

/-- The written form of the type. -/
def toForm (type : TypeRef) : TypeForm :=
  let (word, variableNames) : GenericWord × List String :=
    match type.generic with
    | .concrete => (.none, [])
    | .variable => (.asSuch, [])
    | .wrapper => (.wrapper, [])
    | .parametric variableNames => (.inVariables, variableNames)
  ⟨type.name, type.package, word, variableNames, type.dependencies, type.serialization⟩

theorem ofForm_toForm (type : TypeRef) : ofForm type.toForm = .ok type := by
  rcases type with ⟨name, package, generic, dependencies, serialization⟩
  cases generic <;> rfl

theorem ofForm_eq_error_iff {form : TypeForm} :
    (∃ error, ofForm form = .error error) ↔
      form.generic ≠ .inVariables ∧ form.variableNames ≠ [] := by
  rcases form with ⟨name, package, generic, variableNames, dependencies, serialization⟩
  cases generic <;> cases variableNames <;> simp [ofForm]

end TypeRef

/-- A field of a record or variant. -/
structure Field where
  /-- The field's name. -/
  name : String
  /-- The field's type. -/
  type : TypeRef
  /-- The expression used when the field is not supplied. -/
  defaultValue : Option String
  /-- Bodies of further attributes of the field. -/
  modifiers : List String
  /-- Lines of documentation. -/
  doc : List String
deriving Repr

namespace Field

/-- A field without default, modifiers and documentation. -/
def new (name : String) (type : TypeRef) : Field :=
  ⟨name, type, none, [], []⟩

/-- The field with a default expression. -/
def withDefault (field : Field) (expression : String) : Field :=
  { field with defaultValue := some expression }

/-- The field with one more attribute. -/
def withModifier (field : Field) (modifier : String) : Field :=
  { field with modifiers := field.modifiers ++ [modifier] }

/-- The field with one more line of documentation. -/
def withDoc (field : Field) (line : String) : Field :=
  { field with doc := field.doc ++ [line] }

end Field

end Slotwise
