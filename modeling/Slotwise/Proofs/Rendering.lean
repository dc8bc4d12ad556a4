import Slotwise.Optics.Lens
import Slotwise.Optics.Prism
import Slotwise.Proofs.Outcome
/-!
# Declarations read as code

What the code of a record or of a variant set has to do with the declaration it was read from: one
field for each field and one variant for each variant, in the same order.
-/

namespace Slotwise.Optics

/-- The code of a record that was read. -/
structure Lens.Reads (record : Record) (code : Lens.RecordCode) : Prop where
  /-- The owner is named as written. -/
  owner : code.owner = record.name
  /-- The name of the type. -/
  name : ModelText.identifier record.name "record name" record.name = .ok code.name
  /-- The fields. -/
  fields : FieldCode.ofFields record.name record.serializable record.fields = .ok code.fields
  /-- The type parameters. -/
  parameters : TypeParameters.ofFields record.name record.fields = .ok code.parameters
  /-- The names of the setters. -/
  setterNames : record.fields.mapM (fun field => ModelText.identifier record.name "setter name"
    (Naming.setter field.name record.settersSuffix)) = .ok code.setterNames

theorem Lens.reads_of_ofRecord {record : Record} {code : Lens.RecordCode}
    (h : Lens.RecordCode.ofRecord record = .ok code) : Lens.Reads record code := by
  obtain ⟨name, nameOk, h⟩ := Outcome.bind_eq_ok_iff.1 h
  obtain ⟨fields, fieldsOk, h⟩ := Outcome.bind_eq_ok_iff.1 h
  obtain ⟨parameters, parametersOk, h⟩ := Outcome.bind_eq_ok_iff.1 h
  obtain ⟨setterNames, setterNamesOk, h⟩ := Outcome.bind_eq_ok_iff.1 h
  cases Outcome.pure_eq_ok_iff.1 h
  exact ⟨rfl, nameOk, fieldsOk, parametersOk, setterNamesOk⟩

theorem Lens.Reads.width {record : Record} {code : Lens.RecordCode}
    (reads : Lens.Reads record code) : code.width = record.fields.length :=
  Outcome.length_of_mapM reads.fields

namespace Prism

/-- The code of a variant that was read. -/
structure ReadsVariant (set : VariantSet) (base : List FieldCode) (variant : Variant)
    (code : VariantCode) : Prop where
  /-- The name as written. -/
  written : code.written = variant.name
  /-- The name of the case. -/
  name : ModelText.identifier set.name "variant name" variant.name = .ok code.name
  /-- The name of the constructor function. -/
  constructor : ModelText.identifier set.name "constructor name"
    (Naming.snakeCase variant.name) = .ok code.constructor
  /-- The fields. -/
  fields : FieldCode.ofFields set.name set.serializable variant.fields = .ok code.fields
  /-- The arms that give the base fields. -/
  baseArms : base.mapM (VariantCode.baseArm set.name variant code.name) = .ok code.baseArms

theorem readsVariant_of_ofVariant {set : VariantSet} {base : List FieldCode} {variant : Variant}
    {code : VariantCode} (h : VariantCode.ofVariant set base variant = .ok code) :
    ReadsVariant set base variant code := by
  obtain ⟨name, nameOk, h⟩ := Outcome.bind_eq_ok_iff.1 h
  obtain ⟨constructor, constructorOk, h⟩ := Outcome.bind_eq_ok_iff.1 h
  obtain ⟨fields, fieldsOk, h⟩ := Outcome.bind_eq_ok_iff.1 h
  obtain ⟨baseArms, baseArmsOk, h⟩ := Outcome.bind_eq_ok_iff.1 h
  cases Outcome.pure_eq_ok_iff.1 h
  exact ⟨rfl, nameOk, constructorOk, fieldsOk, baseArmsOk⟩

theorem ReadsVariant.width {set : VariantSet} {base : List FieldCode} {variant : Variant}
    {code : VariantCode} (reads : ReadsVariant set base variant code) :
    code.width = variant.fields.length :=
  Outcome.length_of_mapM reads.fields

/-- The code of a variant set that was read. -/
structure Reads (set : VariantSet) (code : SetCode) : Prop where
  /-- The owner is named as written. -/
  owner : code.owner = set.name
  /-- The name of the type. -/
  name : ModelText.identifier set.name "variant set name" set.name = .ok code.name
  /-- The base fields. -/
  base : FieldCode.ofFields set.name false set.fields = .ok code.base
  /-- The variants. -/
  variants : List.Forall₂ (ReadsVariant set code.base) set.variants code.variants
  /-- The shared fields. -/
  shared : SharedField.collect set = .ok code.shared
  /-- The type parameters. -/
  parameters : TypeParameters.ofFields set.name (set.variants.flatMap (·.fields)) =
    .ok code.parameters

theorem reads_of_ofSet {set : VariantSet} {code : SetCode} (h : SetCode.ofSet set = .ok code) :
    Reads set code := by
  obtain ⟨name, nameOk, h⟩ := Outcome.bind_eq_ok_iff.1 h
  obtain ⟨base, baseOk, h⟩ := Outcome.bind_eq_ok_iff.1 h
  obtain ⟨variants, variantsOk, h⟩ := Outcome.bind_eq_ok_iff.1 h
  obtain ⟨shared, sharedOk, h⟩ := Outcome.bind_eq_ok_iff.1 h
  obtain ⟨parameters, parametersOk, h⟩ := Outcome.bind_eq_ok_iff.1 h
  cases Outcome.pure_eq_ok_iff.1 h
  refine ⟨rfl, nameOk, baseOk, ?_, sharedOk, parametersOk⟩
  exact (Outcome.mapM_eq_ok_iff.1 variantsOk).imp fun _ _ => readsVariant_of_ofVariant

theorem Reads.count {set : VariantSet} {code : SetCode} (reads : Reads set code) :
    code.count = set.variants.length :=
  reads.variants.length_eq.symm

theorem Reads.exists_variant {set : VariantSet} {code : SetCode} (reads : Reads set code)
    {variant : Variant} (member : variant ∈ set.variants) :
    ∃ read ∈ code.variants, ReadsVariant set code.base variant read := by
  have related := reads.variants
  generalize set.variants = variants at related member
  generalize code.variants = codes at related ⊢
  induction related with
  | nil => cases member
  | cons head _ ih =>
    rcases List.mem_cons.1 member with rfl | member
    · exact ⟨_, List.mem_cons_self, head⟩
    · obtain ⟨read, inside, found⟩ := ih member
      exact ⟨read, List.mem_cons_of_mem _ inside, found⟩

theorem Reads.widths {set : VariantSet} {code : SetCode} (reads : Reads set code) :
    code.variants.map VariantCode.width = set.variants.map (·.fields.length) := by
  have related := reads.variants
  generalize set.variants = variants at related ⊢
  generalize code.variants = codes at related ⊢
  induction related with
  | nil => rfl
  | cons head _ ih => rw [List.map_cons, List.map_cons, head.width, ih]

end Prism

end Slotwise.Optics
