import Slotwise.Check.Basic
import Slotwise.Naming
import Slotwise.Optics.Shared
/-!
# Checks on declarations

What records, variant sets and key groups have to satisfy before code is generated for them.
-/

namespace Slotwise.Check

open Naming Optics

/-- The names of a record's setters. -/
def setterNames (record : Record) : List String :=
  record.fields.map fun field => setter field.name record.settersSuffix

/-- The names of all methods of a record's type. -/
def recordMethods (record : Record) : List String :=
  let setters := setterNames record
  ["new"] ++ setters ++ setters.map (· ++ "_async") ++ transactionMethods

/-- Passes if code can be generated for a record. -/
def record (record : Record) : Except Failure Unit := do
  let owner := record.name
  identifier owner "record name" owner
  identifier owner "module name" (snakeCase owner)
  location owner record.location
  if record.fields.isEmpty then throw (.emptyRecord owner)
  fields owner record.fields
  (setterNames record).forM (identifier owner "setter name")
  unique owner "a method" (recordMethods record)

/-! ## Variant sets -/

/-- Passes if an overridden name is a base field and a field of the variant, of one type. -/
def override (set : VariantSet) (variant : Variant) (name : String) : Except Failure Unit := do
  let owner := set.name
  match set.fields.find? (·.name == name) with
  | none => throw (.overrideNotInParent owner variant.name name)
  | some base =>
    match variant.fields.find? (·.name == name) with
    | none => throw (.overrideNotInVariant owner variant.name name)
    | some own =>
      if !SharedField.sameType base.type own.type then
        throw (.sharedTypeClash owner name base.type.name own.type.name)

/-- Passes if a variant overrides a base field or gives a value for it that can be read. -/
def baseValue (set : VariantSet) (variant : Variant) (base : Field) : Except Failure Unit := do
  if variant.overrides.contains base.name then return
  match variant.baseValues.lookup base.name with
  | some text => let _ ← ModelText.expression set.name text
  | none => throw (.missingBaseValue set.name variant.name base.name)

/-- Passes if a variant fits the base fields of its set. -/
def variant (set : VariantSet) (variant : Variant) : Except Failure Unit := do
  identifier set.name "variant name" variant.name
  fields set.name variant.fields
  variant.overrides.forM (override set variant)
  set.fields.forM (baseValue set variant)

/-- The fields of all variants. -/
def variantFields (set : VariantSet) : List Field :=
  set.variants.flatMap (·.fields)

/-- Passes if every type variable of a base field is one of a variant's field. -/
def baseVariables (set : VariantSet) (base : Field) : Except Failure Unit :=
  let carried := (variantFields set).flatMap (·.type.variableNames)
  match base.type.variableNames.find? fun name => !carried.contains name with
  | some name => .error (.foreignVariable set.name base.name name)
  | none => .ok ()

/-- The names of all methods of a variant set's type. -/
def setMethods (set : VariantSet) : List String :=
  set.fields.map (·.name) ++ set.variants.map (fun variant => snakeCase variant.name) ++
    transactionMethods

/-- The names of all methods of a variant set's setters. -/
def setSetters (set : VariantSet) (shared : List SharedField) : List String :=
  shared.map (fun field => setter field.name set.settersSuffix) ++
    set.variants.flatMap fun variant =>
      variant.fields.map fun field => variantSetter field.name variant.name set.settersSuffix

/-- Passes if code can be generated for a variant set. -/
def variantSet (set : VariantSet) : Except Failure Unit := do
  let owner := set.name
  identifier owner "variant set name" owner
  identifier owner "module name" (snakeCase owner)
  location owner set.location
  if set.variants.length < 2 then throw (.tooFewVariants owner set.variants.length)
  fields owner set.fields
  unique owner "a variant" (set.variants.map (·.name))
  set.variants.forM (variant set)
  set.fields.forM (baseVariables set)
  let shared ← SharedField.collect set
  unique owner "a method" (setMethods set)
  let setters := setSetters set shared
  setters.forM (identifier owner "setter name")
  set.variants.forM fun variant =>
    identifier owner "constructor name" (snakeCase variant.name)
  unique owner "a setter" setters

/-- Passes if code can be generated for a group of keys. -/
def keyGroup (group : KeyGroup) : Except Failure Unit := do
  identifier group.stem "key prefix" group.stem
  identifier group.stem "module name" (keysModule group.stem)
  location group.stem group.location
  if group.count = 0 then throw (.keylessGroup group.stem)

end Slotwise.Check
