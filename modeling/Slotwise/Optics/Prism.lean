import Slotwise.Optics.FieldCode
import Slotwise.Optics.Shape
import Slotwise.Optics.Shared
/-!
# Prisms

The code of a variant set: the enumeration, the base fields of the live variant, one constructor per
variant, and setters. The setters of the set are the sum of the variants' setters, so a transaction
targets exactly one variant and leaves every other one as it is.
-/

namespace Slotwise.Optics.Prism

open Code Code.Node Naming

/-- A variant with its texts read as code. -/
structure VariantCode where
  /-- The variant's name as written. -/
  written : String
  /-- The name of the case. -/
  name : String
  /-- The name of the constructor function. -/
  constructor : String
  /-- The fields. -/
  fields : List FieldCode
  /-- The lines of documentation. -/
  docs : List Node
  /-- The arm that gives each base field. -/
  baseArms : List Node

namespace VariantCode

/-- The number of fields. -/
def width (code : VariantCode) : Nat := code.fields.length

/-- The types of the fields. -/
def types (code : VariantCode) : List Node := code.fields.map (·.type)

/-- The case as a path. -/
def path (code : VariantCode) : Node := namedAlong ["Self", code.name]

/-- The arm that gives a base field on this variant. -/
def baseArm (owner : String) (variant : Variant) (name : String) (base : FieldCode) :
    Except Failure Node := do
  let case := namedAlong ["Self", name]
  let rest := range none false none
  if variant.overrides.contains base.name then
    return arm (.fields case [fieldIs base.name (binding "value"), rest] false) none
      (method (named "value") "clone" none [] false) true
  else
    match variant.baseValues.lookup base.name with
    | some text =>
      return arm (.fields case [rest] false) none (← ModelText.expression owner text) true
    | none => throw (.missingBaseValue owner variant.name base.name)

/-- The code of a variant of a set with these base fields. -/
def ofVariant (set : VariantSet) (base : List FieldCode) (variant : Variant) :
    Except Failure VariantCode := do
  let owner := set.name
  let name ← ModelText.identifier owner "variant name" variant.name
  let constructor ←
    ModelText.identifier owner "constructor name" (snakeCase variant.name)
  let fields ← FieldCode.ofFields owner set.serializable variant.fields
  let baseArms ← base.mapM (baseArm owner variant name)
  return ⟨variant.name, name, constructor, fields, docLines variant.doc, baseArms⟩

/-- The variable for the value of a field. -/
def valueVariable (index : Nat) : String := s!"value{index}"

/-- The case with something for every field. -/
def caseWith (code : VariantCode) (content : Nat → Node) : Node :=
  .fields code.path
    (code.fields.zipIdx.map fun (field, i) => fieldIs field.name (content (i + 1))) false

/-- The pattern that takes the case apart. -/
def pattern (code : VariantCode) : Node :=
  code.caseWith fun i => binding (valueVariable i)

/-- The case put together again through its setters. -/
def rebuilt (code : VariantCode) (flavor : Flavor) : Node :=
  code.caseWith fun i => flavor.applySetter (Shape.setterVariable i) (named (valueVariable i))

end VariantCode

/-- A variant set with its texts read as code. -/
structure SetCode where
  /-- The set's name as written. -/
  owner : String
  /-- The name of the type. -/
  name : String
  /-- The base fields. -/
  base : List FieldCode
  /-- The variants. -/
  variants : List VariantCode
  /-- The fields that variants share. -/
  shared : List SharedField
  /-- The type parameters. -/
  parameters : TypeParameters

namespace SetCode

/-- The code of a variant set. -/
def ofSet (set : VariantSet) : Except Failure SetCode := do
  let owner := set.name
  let name ← ModelText.identifier owner "variant set name" owner
  let base ← FieldCode.ofFields owner false set.fields
  let variants ← set.variants.mapM (VariantCode.ofVariant set base)
  let shared ← SharedField.collect set
  let parameters ← TypeParameters.ofFields owner (set.variants.flatMap (·.fields))
  return ⟨owner, name, base, variants, shared, parameters⟩

/-- The number of variants. -/
def count (code : SetCode) : Nat := code.variants.length

/-- The sum type of the variants' setters. -/
def sum (code : SetCode) : String := sumType code.count

/-- The type that the set is. -/
def type (code : SetCode) : Node := code.parameters.applyTo code.name

/-- The setters of the variant with this number, counted from 1, as an expression or pattern. -/
def inVariant (code : SetCode) (index : Nat) (setters : Node) : Node :=
  call (namedAlong [code.sum, summand index]) [setters] false

end SetCode

/-- The enumeration itself. -/
def enumerationItem (set : VariantSet) (code : SetCode) : Node :=
  let tag :=
    if set.serializable && set.serialization == .polymorphic then
      [attr false (metaList (named "serde") .round
        [.word "tag", .mark '=' false, .literal "\"type\""])]
    else []
  behind (docLines set.doc ++ [typeDerivation set.serializable] ++ tag)
    (isPublic (enumeration code.name code.parameters.declared none
      (code.variants.map fun variant =>
        behind variant.docs
          (fieldVariant variant.name
            (variant.fields.map fun field =>
              behind field.attributes (typed (named field.name) field.type)) false none)) true))

/-- The type of the setters. -/
def settersShape (code : SetCode) (flavor : Flavor) : Node :=
  applied code.sum (code.variants.reverse.map fun variant => Shape.type flavor variant.types)

/-- The methods that give the base fields of the live variant. -/
def baseGetters (code : SetCode) : List Node :=
  if code.base.isEmpty then []
  else
    [implementation [] code.parameters.declared false none code.type
      (some (whereClause
        (code.base.map fun field => predicate none field.type [traitBound (named "Clone")])
        false))
      (code.base.zipIdx.map fun (field, i) =>
        attributed [docLine s!" The `{field.name}` of the live variant."]
          (publicFunction field.name none [shared self] false (some field.type)
            [choice self (code.variants.filterMap fun variant => variant.baseArms[i]?)]))]

/-- The function that makes one variant of its fields. -/
def constructor (variant : VariantCode) : Node :=
  attributed [docLine s!" Creates the `{variant.name}` variant."]
    (publicFunction variant.constructor none (FieldCode.inputs variant.fields) false
      (some (named "Self"))
      [fields variant.path (FieldCode.initializers variant.fields) false])

/-- The body of the methods that apply a transaction. -/
def setBody (code : SetCode) (flavor : Flavor) : Node :=
  choice (tuple [call (named "transaction") [shared self] false, self] false)
    (code.variants.zipIdx.map (fun (variant, i) =>
        arm
          (tuple [code.inVariant (i + 1) (Shape.pattern variant.width), variant.pattern] false)
          none (variant.rebuilt flavor) true) ++
      [arm (tuple [wild, binding "unchanged"] false) none (named "unchanged") true])

/-- The body of the functions that make a transaction. -/
def transactionBody (code : SetCode) (flavor : Flavor) : Node :=
  closure none ["move"] [input "live" (shared (named "Self"))] false none
    (block []
      [call (named "block")
        [choice (named "live")
          (code.variants.zipIdx.map fun (variant, i) =>
            arm (fields variant.path [range none false none] false) none
              (code.inVariant (i + 1) (Shape.identity flavor variant.width)) true)] false])

/-- The methods around transactions. -/
def transactional (code : SetCode) (setters asyncSetters : Node) : List Node :=
  [setMethod .direct
      " Applies the setters chosen by `transaction` when they target the live variant." "set"
      setters [setBody code .direct],
    transactionFunction
      " A transaction that edits the identity setters of the live variant with `block`."
      "transaction" setters (transactionBody code .direct),
    setMethod .asynchronous
      (" Applies the asynchronous setters chosen by `transaction` when they target the live " ++
        "variant.") "set_async" asyncSetters [setBody code .asynchronous],
    transactionFunction
      (" A transaction that edits the identity asynchronous setters of the live variant with " ++
        "`block`.") "transaction_async" asyncSetters (transactionBody code .asynchronous)]

/-- The arm that composes an edit into the setters of one field of one variant. -/
def composeArm (code : SetCode) (flavor : Flavor) (variant field : Nat) (type : Node) : Node :=
  let width := ((code.variants[variant - 1]?).map VariantCode.width).getD 0
  arm (code.inVariant variant (binding "setters")) none
    (code.inVariant variant (Shape.composeSlot flavor width field type "setters")) true

/-- The arm that leaves the setters of other variants as they are. -/
def otherArm : Node :=
  arm (binding "other") none (named "other") true

/-- The method that edits a shared field in every variant that has it. -/
def sharedMethod (set : VariantSet) (code : SetCode) (flavor : Flavor) (field : SharedField) :
    Except Failure SetterMethod := do
  let name ← ModelText.identifier code.owner "shared setter name"
    (setter field.name set.settersSuffix)
  let type ← ModelText.type code.owner field.type.name
  let arms := field.occurrences.map fun (variant, place) =>
    composeArm code flavor variant place type
  return ⟨name, flavor.edit type,
    s!" Chains `f` after the setter of `{field.name}` in every variant that has it.",
    choice self (arms ++ if field.covers code.count then [] else [otherArm])⟩

/-- The method that edits one field of one variant, both counted from 1. -/
def variantMethod (set : VariantSet) (code : SetCode) (flavor : Flavor) (variant : VariantCode)
    (v : Nat) (field : FieldCode) (f : Nat) : Except Failure SetterMethod := do
  let name ← ModelText.identifier code.owner "variant setter name"
    (variantSetter field.name variant.written set.settersSuffix)
  return ⟨name, flavor.edit field.type,
    s!" Chains `f` after the setter of `{field.name}` when `{variant.written}` is targeted.",
    choice self [composeArm code flavor v f field.type, otherArm]⟩

/-- The trait that composes edits of single fields, and its implementation for `setters`. -/
def setterOps (set : VariantSet) (code : SetCode) (flavor : Flavor) (setters : Node) :
    Except Failure (List Node) := do
  let owner := code.owner
  let sharedMethods ← code.shared.mapM (sharedMethod set code flavor)
  let variantMethods ← code.variants.zipIdx.mapM fun (variant, v) =>
    variant.fields.zipIdx.mapM fun (field, f) =>
      variantMethod set code flavor variant (v + 1) field (f + 1)
  let trait ← legal (match flavor with
    | .direct => owner ++ "SetterOps"
    | .asynchronous => owner ++ "AsyncSetterOps")
  let doc := match flavor with
    | .direct => s!" Prism setters of [`{owner}`]."
    | .asynchronous => s!" Asynchronous prism setters of [`{owner}`]."
  return SetterMethod.items doc trait code.parameters.declared code.parameters.declaredOwned
    (code.parameters.applyTo trait) setters (sharedMethods ++ variantMethods.flatten)

/-- The file of a variant set. -/
def file (set : VariantSet) (around : Surroundings) : Except Failure File := do
  let code ← SetCode.ofSet set
  let owner := code.owner
  let setters ← legal (withoutRawMark code.name ++ "Setters")
  let asyncSetters ← legal (withoutRawMark code.name ++ "AsyncSetters")
  let widths := code.variants.map VariantCode.width
  let support ← if widths.any (· > 0) then supportImports around else pure []
  let products ← productImports around widths
  let sumPath ← ItemPath.ofFileItem around.sums (sumModule code.count) code.sum
  let imports ← typeImports owner
    ((set.fields ++ set.variants.flatMap (·.fields)).map (·.type))
  let settersType := code.parameters.applyTo setters
  let asyncSettersType := code.parameters.applyTo asyncSetters
  let ops ← setterOps set code .direct settersType
  let asyncOps ← setterOps set code .asynchronous asyncSettersType
  let declared := code.parameters.declared
  return ⟨[fileDoc s!" The `{owner}` variant set and its prisms."],
    serializationImport set.serializable ++ support ++ products ++ [importing sumPath] ++
      imports ++
    [enumerationItem set code,
      typeAlias s!" Setters of one variant of [`{owner}`]; variant i is summand i." setters
        declared (settersShape code .direct),
      typeAlias s!" Asynchronous setters of one variant of [`{owner}`]." asyncSetters declared
        (settersShape code .asynchronous)] ++
    baseGetters code ++
    [methodsOf declared code.type (code.variants.map constructor),
      methodsOf code.parameters.declaredOwned code.type
        (transactional code settersType asyncSettersType)] ++
    ops ++ asyncOps⟩

end Slotwise.Optics.Prism
