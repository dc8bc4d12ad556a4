import Slotwise.Optics.FieldCode
import Slotwise.Optics.Shape
/-!
# Lenses

The code of a record: the struct, its setters as a shape, methods that edit one field or several in
a transaction, and a trait that composes edits field by field.
-/

namespace Slotwise.Optics.Lens

open Code Code.Node Naming

/-- A record with its texts read as code. -/
structure RecordCode where
  /-- The record's name as written. -/
  owner : String
  /-- The name of the type. -/
  name : String
  /-- The fields. -/
  fields : List FieldCode
  /-- The names of the fields' setters. -/
  setterNames : List String
  /-- The type parameters. -/
  parameters : TypeParameters

namespace RecordCode

/-- The code of a record. -/
def ofRecord (record : Record) : Except Failure RecordCode := do
  let owner := record.name
  let name ← ModelText.identifier owner "record name" owner
  let fields ← FieldCode.ofFields owner record.serializable record.fields
  let parameters ← TypeParameters.ofFields owner record.fields
  let setterNames ← record.fields.mapM fun field =>
    ModelText.identifier owner "setter name" (setter field.name record.settersSuffix)
  return ⟨owner, name, fields, setterNames, parameters⟩

/-- The number of fields. -/
def width (code : RecordCode) : Nat := code.fields.length

/-- The type that the record is. -/
def type (code : RecordCode) : Node := code.parameters.applyTo code.name

end RecordCode

/-- A value of the record with every field given. -/
def selfWith (code : RecordCode) (value : Nat → FieldCode → Node) : Node :=
  fields (named "Self")
    (code.fields.zipIdx.map fun (field, i) => fieldIs field.name (value (i + 1) field)) false

/-- The struct itself. -/
def struct (record : Record) (code : RecordCode) : Node :=
  behind (docLines record.doc ++ [typeDerivation record.serializable])
    (isPublic (fieldStruct "struct" code.name code.parameters.declared none
      (code.fields.map fun field =>
        behind field.attributes (publicField field.name field.type)) true))

/-- The function that makes a record of its fields. -/
def constructor (code : RecordCode) : Node :=
  attributed
    [docLine s!" Creates a [`{code.owner}`]; defaulted fields take their default value."]
    (publicFunction "new" none (FieldCode.inputs code.fields) false (some (named "Self"))
      [fields (named "Self") (FieldCode.initializers code.fields) false])

/-- The record with one field given and the others kept. -/
def selfUpdated (code : RecordCode) (field : FieldCode) (value : Node) : Node :=
  let update := fieldIs field.name value
  if code.width > 1 then fields (named "Self") [update, range none false (some self)] false
  else fields (named "Self") [update] true

/-- The two methods that edit one field. -/
def simpleSetters (code : RecordCode) (field : FieldCode) (setterName : String) :
    Except Failure (List Node) := do
  let asyncName ← legal (withoutRawMark setterName ++ "_async")
  let future := code.parameters.fresh "Fut"
  let edited := call (named "f") [member self field.name] false
  return [
    attributed [docLine s!" Applies `f` to `{field.name}`."]
      (publicFunction setterName none
        [self, input "f" (someFunction "FnOnce" field.type field.type)] false
        (some (named "Self")) [selfUpdated code field edited]),
    attributed [docLine s!" Applies `f` to `{field.name}` and awaits the new value."]
      (isPublic (function [.word "async"] asyncName
        (some (generics
          [parameter (named future) [boundWith "Future" "Output" field.type] none] false))
        [self, input "f" (someFunction "FnOnce" field.type (named future))] true
        (some (named "Self")) none
        (some (block [] [selfUpdated code field (.await edited)]))))]

/-- The body of the methods that apply a transaction. -/
def setBody (code : RecordCode) (flavor : Flavor) : List Node :=
  [letStatement (Shape.pattern code.width)
      (some (call (named "transaction") [shared self] false)) none,
    selfWith code fun i field =>
      flavor.applySetter (Shape.setterVariable i) (member self field.name)]

/-- The body of the functions that make a transaction. -/
def transactionBody (code : RecordCode) (flavor : Flavor) : Node :=
  closure none ["move"] [typed wild (shared (named "Self"))] false none
    (call (named "block") [Shape.identity flavor code.width] false)

/-- The methods around transactions. -/
def transactional (code : RecordCode) (setters asyncSetters : Node) : List Node :=
  [setMethod .direct
      " Applies the setters chosen by `transaction`, in field declaration order." "set" setters
      (setBody code .direct),
    transactionFunction " A transaction that edits the all-identity setters with `block`."
      "transaction" setters (transactionBody code .direct),
    setMethod .asynchronous
      (" Applies the asynchronous setters chosen by `transaction`, awaiting in field " ++
        "declaration order.") "set_async" asyncSetters (setBody code .asynchronous),
    transactionFunction
      " A transaction that edits the all-identity asynchronous setters with `block`."
      "transaction_async" asyncSetters (transactionBody code .asynchronous)]

/-- The trait that composes edits of single fields, and its implementation for `setters`. -/
def setterOps (code : RecordCode) (flavor : Flavor) (setters : Node) :
    Except Failure (List Node) := do
  let owner := code.owner
  let trait ← legal (match flavor with
    | .direct => owner ++ "SetterOps"
    | .asynchronous => owner ++ "AsyncSetterOps")
  let doc := match flavor with
    | .direct => s!" Product setters of [`{owner}`]; repeated edits of a field compose."
    | .asynchronous => s!" Asynchronous product setters of [`{owner}`]."
  let methods := (code.fields.zip code.setterNames).zipIdx.map fun ((field, name), i) =>
    (⟨name, flavor.edit field.type, s!" Chains `f` after the current setter of `{field.name}`.",
      Shape.composeSlot flavor code.width (i + 1) field.type "self"⟩ : SetterMethod)
  return SetterMethod.items doc trait code.parameters.declared code.parameters.declaredOwned
    (code.parameters.applyTo trait) setters methods

/-- The file of a record. -/
def file (record : Record) (around : Surroundings) : Except Failure File := do
  let code ← RecordCode.ofRecord record
  let owner := code.owner
  let setters ← legal (withoutRawMark code.name ++ "Setters")
  let asyncSetters ← legal (withoutRawMark code.name ++ "AsyncSetters")
  let support ← supportImports around
  let products ← productImports around [code.width]
  let imports ← typeImports owner (record.fields.map (·.type))
  let simple ← (code.fields.zip code.setterNames).mapM fun (field, name) =>
    simpleSetters code field name
  let settersType := code.parameters.applyTo setters
  let asyncSettersType := code.parameters.applyTo asyncSetters
  let ops ← setterOps code .direct settersType
  let asyncOps ← setterOps code .asynchronous asyncSettersType
  let types := code.fields.map (·.type)
  let declared := code.parameters.declared
  return ⟨[fileDoc s!" The `{owner}` record and its lenses."],
    [importing ["std", "future", "Future"]] ++ serializationImport record.serializable ++
      support ++ products ++ imports ++
    [struct record code,
      typeAlias s!" Setters of every field of [`{owner}`]; field i is factor i." setters declared
        (Shape.type .direct types),
      typeAlias s!" Asynchronous setters of every field of [`{owner}`]." asyncSetters declared
        (Shape.type .asynchronous types),
      methodsOf declared code.type (constructor code :: simple.flatten),
      methodsOf code.parameters.declaredOwned code.type
        (transactional code settersType asyncSettersType)] ++
    ops ++ asyncOps⟩

end Slotwise.Optics.Lens
