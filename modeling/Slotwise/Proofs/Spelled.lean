import Slotwise.Proofs.Checked
import Slotwise.Proofs.Imports
import Slotwise.Proofs.LensItems
import Slotwise.Proofs.PrismItems
import Slotwise.Proofs.Shared
/-!
# Texts that code is made of

The check of a declaration and the generation of its code read the same texts, but not always alike.
A text that was checked as an identifier may go into a longer name as it is written, with the blanks
around it; one that was looked up as it is written may be looked up again as it was read; and paths
to serializers and imports are not checked at all. What is asked of these texts is stated here, and
that it is all that is asked of a checked declaration (`Job.succeeds_code_iff`).
-/

namespace Slotwise

open Outcome Naming Code

/-! ## Paths to items -/

/-- Every segment of the place can stand in code as it is written. -/
def Place.IsLegal (place : Place) : Prop :=
  ∀ segment ∈ place.segments, isLegal segment = true

theorem succeeds_mapM_legal_iff {names : List String} :
    Succeeds (names.mapM legal) ↔ ∀ name ∈ names, isLegal name = true := by
  constructor
  · rintro ⟨_, h⟩
    exact (mapM_legal_eq_ok_iff.1 h).2
  · exact fun legal => ⟨names, mapM_legal_eq_ok_iff.2 ⟨rfl, legal⟩⟩

theorem succeeds_legal_iff {text : String} : Succeeds (legal text) ↔ isLegal text = true := by
  unfold legal
  split
  · next legal => exact ⟨fun _ => legal, fun _ => ⟨text, rfl⟩⟩
  · next illegal =>
    constructor
    · rintro ⟨_, h⟩
      cases h
    · exact fun legal => absurd legal illegal

/-- A path to an item of a file can be made if its segments are legal. -/
theorem succeeds_ofFileItem_iff {place : Place} (sound : place.Sound) {file : String}
    (fileLegal : isLegal file = true) {item : String} :
    Succeeds (ItemPath.ofFileItem place file item) ↔ place.IsLegal := by
  constructor
  · rintro ⟨path, h⟩
    exact (ofFileItem_eq sound fileLegal h).2
  · intro placeLegal
    have segments := place.segments_joined_of_plain
      (fun segment member => ModulePath.plain_of_isLegal (placeLegal segment member))
      (ModulePath.plain_of_isLegal fileLegal)
    have names : Succeeds ((place.segments ++ [file]).mapM legal) := by
      rw [succeeds_mapM_legal_iff, List.forall_mem_append, List.forall_mem_singleton]
      exact ⟨placeLegal, fileLegal⟩
    rw [← segments] at names
    exact succeeds_bind_pure_iff.2 (succeeds_bind_pure_iff.2 names)

/-! ## Fields, type parameters and imports -/

namespace Optics

open ModelText Check

/-- The text of a field's serializer, where it has one, is a path. -/
def SerializerReads (field : Field) : Prop :=
  ∀ serializer, field.type.serialization = .through (some serializer) →
    (Node.path? serializer).isSome = true

/-- The texts of the imports of these types are paths. -/
def ImportsRead (types : List TypeRef) : Prop :=
  ∀ text ∈ importTextsAll types, (Node.path? text).isSome = true

theorem succeeds_serializationAttribute_iff {owner : String} {field : Field} :
    Succeeds (FieldCode.serializationAttribute owner field.type.serialization) ↔
      SerializerReads field := by
  unfold SerializerReads
  generalize field.type.serialization = serialization
  cases serialization with
  | through serializer =>
    cases serializer with
    | none => exact ⟨fun _ _ h => (by cases h), fun _ => ⟨[], rfl⟩⟩
    | some text =>
      rw [FieldCode.serializationAttribute, succeeds_bind_pure_iff, path, succeeds_orInvalid_iff]
      constructor
      · rintro reads _ ⟨⟩
        exact reads
      · exact fun reads => reads text rfl
  | transient => exact ⟨fun _ _ h => (by cases h), fun _ => ⟨_, rfl⟩⟩
  | plain => exact ⟨fun _ _ h => (by cases h), fun _ => ⟨[], rfl⟩⟩
  | polymorphic => exact ⟨fun _ _ h => (by cases h), fun _ => ⟨[], rfl⟩⟩

/-- The code of a checked field needs the path to its serializer, if that is to be used. -/
theorem succeeds_ofField_iff {owner : String} {serializable : Bool} {field : Field}
    (reads : FieldReads owner field) :
    Succeeds (FieldCode.ofField owner serializable field) ↔
      (serializable = true → SerializerReads field) := by
  obtain ⟨name, nameOk⟩ : Succeeds (ModelText.identifier owner "field name" field.name) :=
    succeeds_identifier_iff.2 reads.name
  obtain ⟨type, typeOk⟩ := reads.type
  obtain ⟨default, defaultOk⟩ := reads.default
  obtain ⟨modifiers, modifiersOk⟩ := reads.modifiers
  rw [FieldCode.ofField, succeeds_bind_of_eq nameOk, succeeds_bind_of_eq typeOk,
    succeeds_bind_of_eq defaultOk, succeeds_bind_of_eq modifiersOk]
  cases serializable with
  | true =>
    rw [forall_prop_of_true rfl, if_pos rfl, succeeds_bind_pure_iff,
      succeeds_serializationAttribute_iff]
  | false => exact ⟨fun _ impossible => (by cases impossible), fun _ => succeeds_pure _⟩

/-- The code of checked fields needs the paths to their serializers, if these are to be used. -/
theorem succeeds_ofFields_iff {owner : String} {serializable : Bool} {fields : List Field}
    (reads : ∀ field ∈ fields, FieldReads owner field) :
    Succeeds (FieldCode.ofFields owner serializable fields) ↔
      (serializable = true → ∀ field ∈ fields, SerializerReads field) := by
  rw [FieldCode.ofFields, succeeds_mapM_iff]
  constructor
  · exact fun each used field member =>
      (succeeds_ofField_iff (reads field member)).1 (each field member) used
  · exact fun each field member =>
      (succeeds_ofField_iff (reads field member)).2 fun used => each used field member

theorem firstOccurrences_subset (texts : List String) :
    TypeParameters.firstOccurrences texts ⊆ texts := by
  refine List.foldlRecOn (motive := (· ⊆ texts)) texts _ (List.nil_subset texts) ?_
  intro seen inside text member
  split
  · exact inside
  · exact List.append_subset.2 ⟨inside, List.cons_subset.2 ⟨member, List.nil_subset _⟩⟩

/-- The type variables of checked fields can be read. -/
theorem exists_parameters {owner : String} {fields : List Field}
    (reads : ∀ field ∈ fields, FieldReads owner field) :
    Succeeds (TypeParameters.ofFields owner fields) := by
  rw [TypeParameters.ofFields, succeeds_bind_pure_iff, succeeds_mapM_iff]
  intro name member
  obtain ⟨field, inside, among⟩ := List.mem_flatMap.1 (firstOccurrences_subset _ member)
  exact succeeds_identifier_iff.2 ((reads field inside).variableNames name among)

theorem succeeds_typeImports_iff {owner : String} {types : List TypeRef} :
    Succeeds (typeImports owner types) ↔ ImportsRead types := by
  rw [typeImports, succeeds_bind_pure_iff, succeeds_mapM_iff, ImportsRead]
  refine forall_congr' fun text => ?_
  rw [Ordered.sortedTexts, path, succeeds_orInvalid_iff,
    Ordered.mem_sortedSet_iff fun _ _ _ _ => Std.LawfulEqOrd.eq_of_compare]

theorem forall_succeeds_of_hasImports {file : File} {imports : List Import} {own : List Node}
    (h : file.HasImports imports own) : ∀ imported ∈ imports, Succeeds imported.path := by
  obtain ⟨_, paths, related, -, -⟩ := h
  exact succeeds_mapM_iff.1 ⟨paths, mapM_eq_ok_iff.2 related⟩

theorem exists_supportImports {around : Surroundings}
    (imports : ∀ imported ∈ supportTargets around, Succeeds imported.path) :
    Succeeds (supportImports around) := by
  refine succeeds_mapM_iff.2 fun item member => succeeds_map_iff.2 ?_
  exact imports ⟨⟨.setters, around.support⟩, item⟩ (List.mem_map.2 ⟨item, member, rfl⟩)

theorem exists_productImports {around : Surroundings} {widths : List Nat}
    (imports : ∀ imported ∈ productTargets around widths, Succeeds imported.path) :
    Succeeds (productImports around widths) := by
  refine succeeds_mapM_iff.2 fun width member => succeeds_map_iff.2 ?_
  exact imports ⟨⟨.product width, around.products⟩, productType width⟩
    (List.mem_map.2 ⟨width, member, rfl⟩)

/-! ## Records -/

namespace Lens

/-- What is asked of the texts of a record that passed its check. -/
structure Spelled (record : Record) : Prop where
  /-- The name can stand in code as it is written. -/
  name : isLegal record.name = true
  /-- The serializers that are used are paths. -/
  serializers : record.serializable = true → ∀ field ∈ record.fields, SerializerReads field
  /-- The imports of the fields' types are paths. -/
  imports : ImportsRead (record.fields.map (·.type))

theorem succeeds_ofRecord_iff {record : Record} (reads : RecordReads record) :
    Succeeds (RecordCode.ofRecord record) ↔
      (record.serializable = true → ∀ field ∈ record.fields, SerializerReads field) := by
  obtain ⟨name, nameOk⟩ :
      Succeeds (ModelText.identifier record.name "record name" record.name) :=
    succeeds_identifier_iff.2 reads.name
  obtain ⟨parameters, parametersOk⟩ := exists_parameters reads.fields
  have setterNames : Succeeds (record.fields.mapM fun field =>
      ModelText.identifier record.name "setter name" (setter field.name record.settersSuffix)) :=
    succeeds_mapM_iff.2 fun field member =>
      succeeds_identifier_iff.2 (reads.setters _ (List.mem_map_of_mem member))
  rw [RecordCode.ofRecord, succeeds_bind_of_eq nameOk, ← succeeds_ofFields_iff reads.fields]
  constructor
  · exact fun ⟨_, h⟩ => (bind_eq_ok_iff.1 h).imp fun _ => And.left
  · rintro ⟨fields, fieldsOk⟩
    rw [succeeds_bind_of_eq fieldsOk, succeeds_bind_of_eq parametersOk]
    exact succeeds_bind_pure_iff.2 setterNames

/-- The suffixes for the names of the traits around setters can continue any name. -/
theorem isLegal_trait_iff {text name : String} (h : Node.identifier? text = some name)
    (flavor : Flavor) :
    isLegal (match flavor with
      | .direct => text ++ "SetterOps"
      | .asynchronous => text ++ "AsyncSetterOps") = true ↔ isLegal text = true := by
  cases flavor with
  | direct => exact Node.isLegal_append_iff h (List.all_eq_true.1 (by decide)) (by decide)
  | asynchronous => exact Node.isLegal_append_iff h (List.all_eq_true.1 (by decide)) (by decide)

theorem succeeds_setterOps_iff {code : RecordCode} {name : String}
    (h : Node.identifier? code.owner = some name) (flavor : Flavor) (setters : Node) :
    Succeeds (setterOps code flavor setters) ↔ isLegal code.owner = true := by
  exact succeeds_bind_pure_iff.trans (succeeds_legal_iff.trans (isLegal_trait_iff h flavor))

theorem exists_simpleSetters {code : RecordCode} {field : FieldCode} {setterName : String}
    (legal : isLegal setterName = true) : Succeeds (simpleSetters code field setterName) := by
  rw [simpleSetters, succeeds_bind_pure_iff, succeeds_legal_iff]
  exact isLegal_withoutRawMark_append legal (List.all_eq_true.1 (by decide))

/-- The code of a checked record can be made if its imports can, and its texts are spelled so that
they can stand in it. -/
theorem succeeds_file_iff {record : Record} (reads : RecordReads record)
    {around : Surroundings} :
    Succeeds (file record around) ↔
      (∀ imported ∈ supportTargets around ++ productTargets around [record.fields.length],
        Succeeds imported.path) ∧ Spelled record := by
  constructor
  · rintro ⟨file, h⟩
    obtain ⟨own, types, imports⟩ := Lens.hasImports h
    obtain ⟨code, _, _, ops, _, codeOk, -, -, opsOk, -, -⟩ := items_of_file h
    have ofRecord := reads_of_ofRecord codeOk
    obtain ⟨name, read⟩ := Option.isSome_iff_exists.1 reads.name.2
    refine ⟨forall_succeeds_of_hasImports imports, ?_, ?_, succeeds_typeImports_iff.1 ⟨own, types⟩⟩
    · rw [← ofRecord.owner] at read ⊢
      exact (succeeds_setterOps_iff read .direct _).1 ⟨ops, opsOk⟩
    · exact (succeeds_ofRecord_iff reads).1 ⟨code, codeOk⟩
  · rintro ⟨imports, spelled⟩
    obtain ⟨code, codeOk⟩ := (succeeds_ofRecord_iff reads).2 spelled.serializers
    have ofRecord := reads_of_ofRecord codeOk
    have nameLegal := (Node.isLegal_of_identifier? (identifier?_of_identifier ofRecord.name)).1
    obtain ⟨name, read⟩ := Option.isSome_iff_exists.1 reads.name.2
    have setters : Succeeds (legal (withoutRawMark code.name ++ "Setters")) :=
      succeeds_legal_iff.2
        (isLegal_withoutRawMark_append nameLegal (List.all_eq_true.1 (by decide)))
    have asyncSetters : Succeeds (legal (withoutRawMark code.name ++ "AsyncSetters")) :=
      succeeds_legal_iff.2
        (isLegal_withoutRawMark_append nameLegal (List.all_eq_true.1 (by decide)))
    have support : Succeeds (supportImports around) := exists_supportImports fun imported member =>
      imports imported (List.mem_append_left _ member)
    have products : Succeeds (productImports around [code.width]) := exists_productImports
      fun imported member => imports imported (List.mem_append_right _ (ofRecord.width ▸ member))
    have types : Succeeds (typeImports code.owner (record.fields.map (·.type))) :=
      succeeds_typeImports_iff.2 spelled.imports
    have simple : Succeeds ((code.fields.zip code.setterNames).mapM fun row =>
        simpleSetters code row.1 row.2) := by
      rw [succeeds_mapM_iff]
      intro row member
      obtain ⟨field, -, setterRead⟩ := mem_of_mapM ofRecord.setterNames (List.of_mem_zip member).2
      exact exists_simpleSetters
        (Node.isLegal_of_identifier? (identifier?_of_identifier setterRead)).1
    have ops (flavor : Flavor) (setters : Node) : Succeeds (setterOps code flavor setters) := by
      rw [← ofRecord.owner] at read
      exact (succeeds_setterOps_iff read flavor setters).2 (ofRecord.owner ▸ spelled.name)
    obtain ⟨setters, settersOk⟩ := setters
    obtain ⟨asyncSetters, asyncSettersOk⟩ := asyncSetters
    obtain ⟨support, supportOk⟩ := support
    obtain ⟨products, productsOk⟩ := products
    obtain ⟨types, typesOk⟩ := types
    obtain ⟨simple, simpleOk⟩ := simple
    obtain ⟨directOps, directOk⟩ := ops .direct (code.parameters.applyTo setters)
    rw [file, succeeds_bind_of_eq codeOk, succeeds_bind_of_eq settersOk,
      succeeds_bind_of_eq asyncSettersOk, succeeds_bind_of_eq supportOk,
      succeeds_bind_of_eq productsOk, succeeds_bind_of_eq typesOk, succeeds_bind_of_eq simpleOk,
      succeeds_bind_of_eq directOk]
    exact succeeds_bind_pure_iff.2 (ops .asynchronous _)

end Lens

/-! ## Variant sets -/

namespace Prism

/-- The variant stands in for the base field of this name, or has a value for it that can be read. -/
def Gives (variant : Variant) (name : String) : Prop :=
  name ∈ variant.overrides ∨ ∃ text, variant.baseValues.lookup name = some text ∧
    (Node.expression? text).isSome = true

/-- What is asked of the texts of a variant set that passed its check. -/
structure Spelled (set : VariantSet) : Prop where
  /-- The name can stand in code as it is written. -/
  name : isLegal set.name = true
  /-- The serializers that are used are paths. -/
  serializers : set.serializable = true → ∀ field ∈ Check.variantFields set, SerializerReads field
  /-- The variants give each base field under the name that it has in code. -/
  bases : ∀ variant ∈ set.variants, ∀ field ∈ set.fields, ∀ name,
    Node.identifier? field.name = some name → Gives variant name
  /-- The setters of fields are named after the names that the fields have in code. -/
  setters : ∀ variant ∈ set.variants, ∀ field ∈ variant.fields, ∀ name,
    Node.identifier? field.name = some name →
      IsName (variantSetter name variant.name set.settersSuffix)
  /-- The imports of the fields' types are paths. -/
  imports : ImportsRead ((set.fields ++ set.variants.flatMap (·.fields)).map (·.type))

theorem succeeds_baseArm_iff {owner : String} {variant : Variant} {name : String}
    {base : FieldCode} :
    Succeeds (VariantCode.baseArm owner variant name base) ↔ Gives variant base.name := by
  unfold VariantCode.baseArm Gives
  split
  · next overridden =>
    exact ⟨fun _ => .inl (List.contains_iff_mem.1 overridden), fun _ => succeeds_pure _⟩
  · next kept =>
    have absent : base.name ∉ variant.overrides := fun inside =>
      kept (List.contains_iff_mem.2 inside)
    rw [or_iff_right absent]
    split
    · next text given =>
      rw [succeeds_bind_pure_iff, expression, succeeds_orInvalid_iff]
      exact ⟨fun reads => ⟨text, given, reads⟩, fun ⟨other, same, reads⟩ => by
        cases given.symm.trans same
        exact reads⟩
    · next none =>
      constructor
      · rintro ⟨_, h⟩
        cases h
      · rintro ⟨_, given, -⟩
        cases none.symm.trans given

theorem identifier?_of_ofField {owner : String} {serializable : Bool} {field : Field}
    {code : FieldCode} (h : FieldCode.ofField owner serializable field = .ok code) :
    Node.identifier? field.name = some code.name := by
  obtain ⟨name, nameOk, h⟩ := bind_eq_ok_iff.1 h
  obtain ⟨type, -, h⟩ := bind_eq_ok_iff.1 h
  obtain ⟨default, -, h⟩ := bind_eq_ok_iff.1 h
  obtain ⟨modifiers, -, h⟩ := bind_eq_ok_iff.1 h
  obtain ⟨serialization, -, h⟩ := ite_bind_eq_ok_iff.1 h
  cases pure_eq_ok_iff.1 h
  exact identifier?_of_identifier nameOk

/-- The names of fields in code are what the texts of their names read as. -/
theorem forall_name_iff {owner : String} {serializable : Bool} {fields : List Field}
    {codes : List FieldCode} (h : FieldCode.ofFields owner serializable fields = .ok codes)
    (P : String → Prop) :
    (∀ code ∈ codes, P code.name) ↔
      ∀ field ∈ fields, ∀ name, Node.identifier? field.name = some name → P name := by
  constructor
  · intro each field member name read
    obtain ⟨code, inside, ofField⟩ := exists_of_mapM h member
    cases read.symm.trans (identifier?_of_ofField ofField)
    exact each code inside
  · intro each code member
    obtain ⟨field, inside, ofField⟩ := mem_of_mapM h member
    exact each field inside _ (identifier?_of_ofField ofField)

theorem succeeds_ofVariant_iff {set : VariantSet} (reads : SetReads set) {base : List FieldCode}
    {variant : Variant} (member : variant ∈ set.variants) :
    Succeeds (VariantCode.ofVariant set base variant) ↔
      (set.serializable = true → ∀ field ∈ variant.fields, SerializerReads field) ∧
        ∀ field ∈ base, Gives variant field.name := by
  obtain ⟨name, nameOk⟩ :
      Succeeds (ModelText.identifier set.name "variant name" variant.name) :=
    succeeds_identifier_iff.2 (reads.variants variant member)
  obtain ⟨constructor, constructorOk⟩ :
      Succeeds (ModelText.identifier set.name "constructor name" (snakeCase variant.name)) :=
    succeeds_identifier_iff.2 (reads.constructors variant member)
  have fieldReads : ∀ field ∈ variant.fields, FieldReads set.name field := fun field inside =>
    reads.variantFields field (List.mem_flatMap.2 ⟨variant, member, inside⟩)
  have arms : Succeeds (base.mapM (VariantCode.baseArm set.name variant name)) ↔
      ∀ field ∈ base, Gives variant field.name := by
    rw [succeeds_mapM_iff]
    exact forall₂_congr fun _ _ => succeeds_baseArm_iff
  rw [VariantCode.ofVariant, succeeds_bind_of_eq nameOk, succeeds_bind_of_eq constructorOk,
    ← succeeds_ofFields_iff fieldReads, ← arms]
  constructor
  · rintro ⟨_, h⟩
    obtain ⟨fields, fieldsOk, h⟩ := bind_eq_ok_iff.1 h
    obtain ⟨baseArms, baseArmsOk, -⟩ := bind_eq_ok_iff.1 h
    exact ⟨⟨fields, fieldsOk⟩, baseArms, baseArmsOk⟩
  · rintro ⟨⟨fields, fieldsOk⟩, baseArms⟩
    rw [succeeds_bind_of_eq fieldsOk]
    exact succeeds_bind_pure_iff.2 baseArms

theorem succeeds_ofSet_iff {set : VariantSet} (reads : SetReads set) :
    Succeeds (SetCode.ofSet set) ↔
      (set.serializable = true → ∀ field ∈ Check.variantFields set, SerializerReads field) ∧
        ∀ variant ∈ set.variants, ∀ field ∈ set.fields, ∀ name,
          Node.identifier? field.name = some name → Gives variant name := by
  obtain ⟨name, nameOk⟩ :
      Succeeds (ModelText.identifier set.name "variant set name" set.name) :=
    succeeds_identifier_iff.2 reads.name
  obtain ⟨base, baseOk⟩ : Succeeds (FieldCode.ofFields set.name false set.fields) :=
    (succeeds_ofFields_iff reads.fields).2 fun impossible => (by cases impossible)
  obtain ⟨shared, sharedOk, -⟩ := reads.setters
  have variantFields : ∀ field ∈ set.variants.flatMap (·.fields), FieldReads set.name field :=
    reads.variantFields
  obtain ⟨parameters, parametersOk⟩ := exists_parameters variantFields
  have variants : Succeeds (set.variants.mapM (VariantCode.ofVariant set base)) ↔
      (set.serializable = true → ∀ field ∈ Check.variantFields set, SerializerReads field) ∧
        ∀ variant ∈ set.variants, ∀ field ∈ set.fields, ∀ name,
          Node.identifier? field.name = some name → Gives variant name := by
    rw [succeeds_mapM_iff]
    constructor
    · intro each
      refine ⟨fun used field inside => ?_, fun variant member => ?_⟩
      · obtain ⟨variant, member, among⟩ := List.mem_flatMap.1 inside
        exact ((succeeds_ofVariant_iff reads member).1 (each variant member)).1 used field among
      · exact (forall_name_iff baseOk _).1
          ((succeeds_ofVariant_iff reads member).1 (each variant member)).2
    · rintro ⟨serializers, bases⟩ variant member
      refine (succeeds_ofVariant_iff reads member).2 ⟨fun used field inside => ?_,
        (forall_name_iff baseOk _).2 (bases variant member)⟩
      exact serializers used field (List.mem_flatMap.2 ⟨variant, member, inside⟩)
  rw [SetCode.ofSet, succeeds_bind_of_eq nameOk, succeeds_bind_of_eq baseOk, ← variants]
  constructor
  · exact fun ⟨_, h⟩ => (bind_eq_ok_iff.1 h).imp fun _ => And.left
  · rintro ⟨codes, codesOk⟩
    rw [succeeds_bind_of_eq codesOk, succeeds_bind_of_eq sharedOk,
      succeeds_bind_of_eq parametersOk]
    exact succeeds_pure _

theorem forall_mem_zipIdx_iff {α : Type} {xs : List α} {P : α → Prop} :
    (∀ entry ∈ xs.zipIdx, P entry.1) ↔ ∀ x ∈ xs, P x := by
  rw [← List.forall_mem_map, List.zipIdx_map_fst]

theorem succeeds_variantMethod_iff {set : VariantSet} {code : SetCode} {flavor : Flavor}
    {variant : VariantCode} {field : FieldCode} {v f : Nat} :
    Succeeds (variantMethod set code flavor variant v field f) ↔
      IsName (variantSetter field.name variant.written set.settersSuffix) := by
  rw [variantMethod, succeeds_bind_pure_iff, succeeds_identifier_iff]

theorem exists_sharedMethod {set : VariantSet} (reads : SetReads set) {code : SetCode}
    (ofSet : Reads set code) (flavor : Flavor) {shared : SharedField}
    (member : shared ∈ code.shared) : Succeeds (sharedMethod set code flavor shared) := by
  obtain ⟨collected, collect, names⟩ := reads.setters
  cases collect.symm.trans ofSet.shared
  obtain ⟨name, nameOk⟩ : Succeeds (ModelText.identifier code.owner "shared setter name"
      (setter shared.name set.settersSuffix)) := by
    refine succeeds_identifier_iff.2 (names _ (List.mem_append_left _ ?_))
    exact List.mem_map.2 ⟨shared, member, rfl⟩
  obtain ⟨variant, inVariant, field, inField, same⟩ :=
    SharedField.exists_type_of_collect ofSet.shared member
  have type := (reads.variantFields field (List.mem_flatMap.2 ⟨variant, inVariant, inField⟩)).type
  rw [sharedMethod, succeeds_bind_of_eq nameOk, succeeds_bind_pure_iff, ofSet.owner, ← same]
  exact type

/-- The names of the setters of single variants, made of the names that fields have in code. -/
theorem forall_variantSetter_iff {set : VariantSet} {code : SetCode} (ofSet : Reads set code) :
    (∀ variant ∈ code.variants, ∀ field ∈ variant.fields,
        IsName (variantSetter field.name variant.written set.settersSuffix)) ↔
      ∀ variant ∈ set.variants, ∀ field ∈ variant.fields, ∀ name,
        Node.identifier? field.name = some name →
          IsName (variantSetter name variant.name set.settersSuffix) := by
  have related := ofSet.variants
  generalize set.variants = variants at related ⊢
  generalize code.variants = codes at related ⊢
  induction related with
  | nil => simp
  | cons head _ ih =>
    rw [List.forall_mem_cons, List.forall_mem_cons, head.written]
    exact and_congr (forall_name_iff head.fields fun name => IsName (variantSetter name _ _)) ih

theorem succeeds_setterOps_iff {set : VariantSet} (reads : SetReads set) {code : SetCode}
    (ofSet : Reads set code) (flavor : Flavor) (setters : Node) :
    Succeeds (setterOps set code flavor setters) ↔
      (∀ variant ∈ set.variants, ∀ field ∈ variant.fields, ∀ name,
        Node.identifier? field.name = some name →
          IsName (variantSetter name variant.name set.settersSuffix)) ∧
      isLegal set.name = true := by
  obtain ⟨sharedMethods, sharedOk⟩ : Succeeds (code.shared.mapM (sharedMethod set code flavor)) :=
    succeeds_mapM_iff.2 fun shared member => exists_sharedMethod reads ofSet flavor member
  have variants : Succeeds (code.variants.zipIdx.mapM fun variant =>
      variant.1.fields.zipIdx.mapM fun field =>
        variantMethod set code flavor variant.1 (variant.2 + 1) field.1 (field.2 + 1)) ↔
      ∀ variant ∈ code.variants, ∀ field ∈ variant.fields,
        IsName (variantSetter field.name variant.written set.settersSuffix) := by
    simp only [succeeds_mapM_iff, succeeds_variantMethod_iff]
    refine (forall_mem_zipIdx_iff (P := fun variant : VariantCode => ∀ row ∈ variant.fields.zipIdx,
      IsName (variantSetter row.1.name variant.written set.settersSuffix))).trans ?_
    exact forall₂_congr fun variant _ => forall_mem_zipIdx_iff (P := fun field : FieldCode =>
      IsName (variantSetter field.name variant.written set.settersSuffix))
  obtain ⟨name, read⟩ := Option.isSome_iff_exists.1 reads.name.2
  rw [← forall_variantSetter_iff ofSet, ← variants]
  have trait := Lens.isLegal_trait_iff read flavor
  rw [← ofSet.owner] at trait ⊢
  rw [← trait, ← succeeds_legal_iff, setterOps.eq_def, succeeds_bind_of_eq sharedOk]
  constructor
  · rintro ⟨_, h⟩
    obtain ⟨variantMethods, variantsOk, h⟩ := bind_eq_ok_iff.1 h
    obtain ⟨name, nameOk, -⟩ := bind_eq_ok_iff.1 h
    refine ⟨⟨variantMethods, variantsOk⟩, name, ?_⟩
    cases flavor <;> exact nameOk
  · rintro ⟨⟨variantMethods, variantsOk⟩, trait⟩
    rw [succeeds_bind_of_eq variantsOk]
    refine succeeds_bind_pure_iff.2 ?_
    cases flavor <;> exact trait

/-- The code of a checked variant set can be made if its imports can, and its texts are spelled so
that they can stand in it. -/
theorem succeeds_file_iff {set : VariantSet} (reads : SetReads set) {around : Surroundings} :
    Succeeds (file set around) ↔
      (∀ imported ∈
        (if (set.variants.map (·.fields.length)).any (· > 0) then supportTargets around else []) ++
          productTargets around (set.variants.map (·.fields.length)) ++
          [⟨⟨.sum set.variants.length, around.sums⟩, sumType set.variants.length⟩],
        Succeeds imported.path) ∧ Spelled set := by
  constructor
  · rintro ⟨file, h⟩
    obtain ⟨own, types, imports⟩ := Prism.hasImports h
    obtain ⟨code, _, ops, _, codeOk, -, opsOk, -, -⟩ := items_of_file h
    obtain ⟨setters, name⟩ :=
      (succeeds_setterOps_iff reads (reads_of_ofSet codeOk) .direct _).1 ⟨ops, opsOk⟩
    obtain ⟨serializers, bases⟩ := (succeeds_ofSet_iff reads).1 ⟨code, codeOk⟩
    exact ⟨forall_succeeds_of_hasImports imports,
      ⟨name, serializers, bases, setters, succeeds_typeImports_iff.1 ⟨own, types⟩⟩⟩
  · rintro ⟨imports, spelled⟩
    simp only [List.forall_mem_append, List.forall_mem_singleton] at imports
    obtain ⟨code, codeOk⟩ := (succeeds_ofSet_iff reads).2 ⟨spelled.serializers, spelled.bases⟩
    have ofSet := reads_of_ofSet codeOk
    have nameLegal := (Node.isLegal_of_identifier? (identifier?_of_identifier ofSet.name)).1
    obtain ⟨setters, settersOk⟩ : Succeeds (legal (withoutRawMark code.name ++ "Setters")) :=
      succeeds_legal_iff.2
        (isLegal_withoutRawMark_append nameLegal (List.all_eq_true.1 (by decide)))
    obtain ⟨asyncSetters, asyncSettersOk⟩ :
        Succeeds (legal (withoutRawMark code.name ++ "AsyncSetters")) :=
      succeeds_legal_iff.2
        (isLegal_withoutRawMark_append nameLegal (List.all_eq_true.1 (by decide)))
    obtain ⟨products, productsOk⟩ :
        Succeeds (productImports around (code.variants.map VariantCode.width)) :=
      exists_productImports (ofSet.widths ▸ imports.1.2)
    obtain ⟨sumPath, sumOk⟩ :
        Succeeds (ItemPath.ofFileItem around.sums (sumModule code.count) code.sum) := by
      rw [SetCode.sum, ofSet.count]
      exact imports.2
    obtain ⟨types, typesOk⟩ : Succeeds (typeImports code.owner
        ((set.fields ++ set.variants.flatMap (·.fields)).map (·.type))) :=
      succeeds_typeImports_iff.2 spelled.imports
    have ops (flavor : Flavor) (setters : Node) : Succeeds (setterOps set code flavor setters) :=
      (succeeds_setterOps_iff reads ofSet flavor setters).2 ⟨spelled.setters, spelled.name⟩
    obtain ⟨directOps, directOk⟩ := ops .direct (code.parameters.applyTo setters)
    obtain ⟨support, supportOk⟩ : ∃ support,
        (if (code.variants.map VariantCode.width).any (· > 0) then supportImports around
          else pure []) = .ok support := by
      have supportTargets := imports.1.1
      rw [ofSet.widths]
      split at supportTargets
      · next used =>
        rw [if_pos used]
        exact exists_supportImports supportTargets
      · next unused =>
        rw [if_neg unused]
        exact succeeds_pure _
    rw [file, succeeds_bind_of_eq codeOk, succeeds_bind_of_eq settersOk,
      succeeds_bind_of_eq asyncSettersOk]
    refine succeeds_ite_bind_iff.2 ⟨support, supportOk, ?_⟩
    rw [succeeds_bind_of_eq productsOk, succeeds_bind_of_eq sumOk, succeeds_bind_of_eq typesOk,
      succeeds_bind_of_eq directOk]
    exact succeeds_bind_pure_iff.2 (ops .asynchronous _)

end Prism

end Optics

/-! ## Jobs -/

namespace Family

theorem Product.succeeds_file_iff {dimension : Nat} {place : Place} :
    Succeeds (Product.file dimension place) ↔
      Succeeds (Import.path ⟨⟨.productMarker, place⟩, "Product"⟩) :=
  succeeds_bind_pure_iff

theorem Sum.succeeds_file_iff {dimension : Nat} {place : Place} :
    Succeeds (Sum.file dimension place) ↔
      Succeeds (Import.path ⟨⟨.sumMarker, place⟩, "Sum"⟩) :=
  succeeds_bind_pure_iff

theorem Arithmetic.succeeds_file_iff {dimension : Nat} {place : Place} :
    Succeeds (Arithmetic.file dimension place) ↔
      ∀ width ∈ List.range' 2 (dimension - 1),
        Succeeds (Import.path ⟨⟨.product width, place⟩, productType width⟩) :=
  succeeds_bind_pure_iff.trans
    (succeeds_mapM_iff.trans (forall₂_congr fun _ _ => succeeds_map_iff))

theorem Duality.succeeds_file_iff {dimension : Nat} {products sums : Place} :
    Succeeds (Duality.file dimension products sums) ↔
      Succeeds (Import.path ⟨⟨.product dimension, products⟩, productType dimension⟩) ∧
      Succeeds (Import.path ⟨⟨.sum dimension, sums⟩, sumType dimension⟩) ∧
      Succeeds (Import.path ⟨⟨.sum dimension, sums⟩, s!"sum{dimension}"⟩) ∧
      ∀ slot ∈ slotsDown dimension,
        Succeeds (Import.path ⟨⟨.sum dimension, sums⟩, injection dimension slot⟩) := by
  constructor
  · rintro ⟨_, h⟩
    obtain ⟨product, productOk, h⟩ := bind_eq_ok_iff.1 h
    obtain ⟨sum, sumOk, h⟩ := bind_eq_ok_iff.1 h
    obtain ⟨case, caseOk, h⟩ := bind_eq_ok_iff.1 h
    obtain ⟨injections, injectionsOk, -⟩ := bind_eq_ok_iff.1 h
    exact ⟨⟨product, productOk⟩, ⟨sum, sumOk⟩, ⟨case, caseOk⟩,
      succeeds_mapM_iff.1 ⟨injections, injectionsOk⟩⟩
  · rintro ⟨⟨product, productOk⟩, ⟨sum, sumOk⟩, ⟨case, caseOk⟩, injections⟩
    refine (succeeds_bind_of_eq productOk).2 ((succeeds_bind_of_eq sumOk).2
      ((succeeds_bind_of_eq caseOk).2 (succeeds_bind_pure_iff.2 ?_)))
    exact succeeds_mapM_iff.2 injections

theorem Evolution.succeeds_productFile_iff {dimension : Nat} {products : Place} :
    Succeeds (Evolution.productFile dimension products) ↔
      Succeeds (Import.path ⟨⟨.product dimension, products⟩, productType dimension⟩) :=
  succeeds_bind_pure_iff

theorem Evolution.succeeds_sumFile_iff {dimension : Nat} {products sums : Place} :
    Succeeds (Evolution.sumFile dimension products sums) ↔
      Succeeds (Import.path ⟨⟨.product dimension, products⟩, productType dimension⟩) ∧
      Succeeds (Import.path ⟨⟨.sum dimension, sums⟩, sumType dimension⟩) := by
  constructor
  · rintro ⟨_, h⟩
    obtain ⟨product, productOk, h⟩ := bind_eq_ok_iff.1 h
    obtain ⟨sum, sumOk, -⟩ := bind_eq_ok_iff.1 h
    exact ⟨⟨product, productOk⟩, sum, sumOk⟩
  · rintro ⟨⟨product, productOk⟩, sum⟩
    exact (succeeds_bind_of_eq productOk).2 (succeeds_bind_pure_iff.2 sum)

end Family

/-- What is asked of the stem of a key group: its names can stand in code as they are written. -/
def Keys.Spelled (group : KeyGroup) : Prop :=
  ∀ suffix ∈ ["Key", "Keys"], isLegal (capitalize group.stem ++ suffix) = true

theorem Keys.succeeds_file_iff {group : KeyGroup} {place : Place} :
    Succeeds (Keys.file group place) ↔ Keys.Spelled group := by
  rw [Keys.Spelled, List.forall_mem_cons, List.forall_mem_singleton, ← succeeds_legal_iff,
    ← succeeds_legal_iff, Keys.file]
  constructor
  · rintro ⟨_, h⟩
    obtain ⟨keyType, keyOk, h⟩ := bind_eq_ok_iff.1 h
    obtain ⟨indexType, indexOk, -⟩ := bind_eq_ok_iff.1 h
    exact ⟨⟨keyType, keyOk⟩, indexType, indexOk⟩
  · rintro ⟨⟨keyType, keyOk⟩, index⟩
    rw [succeeds_bind_of_eq keyOk]
    exact succeeds_bind_pure_iff.2 index

/-- The texts of the declaration that a task is for could be read by its check. -/
def Task.Reads : Task → Prop
  | .lens _ record => Check.RecordReads record
  | .prism _ set => Check.SetReads set
  | _ => True

/-- What is asked of the texts of the declaration that a task is for. -/
def Task.Spelled : Task → Prop
  | .keys _ group => Keys.Spelled group
  | .lens _ record => Optics.Lens.Spelled record
  | .prism _ set => Optics.Prism.Spelled set
  | _ => True

/-- What is asked of the texts that the file of a job is made of. -/
structure Job.Spelled (job : Job) : Prop where
  /-- The modules that the file imports from can stand in code as they are written. -/
  imports : ∀ imported ∈ job.imports, imported.target.place.IsLegal
  /-- So can the texts of the declaration. -/
  declaration : job.task.Spelled

theorem Import.Known.succeeds_path_iff {imported : Import} (known : imported.Known)
    (sound : imported.target.place.Sound) :
    Succeeds imported.path ↔ imported.target.place.IsLegal :=
  succeeds_ofFileItem_iff sound known.isLegal_fileModule

theorem Job.succeeds_code_iff_paths {job : Job} (reads : job.task.Reads) :
    Succeeds job.code ↔
      (∀ imported ∈ job.imports, Succeeds imported.path) ∧ job.task.Spelled := by
  rcases job with ⟨task, place⟩
  cases task with
  | productMarker | sumMarker | setters =>
    exact iff_of_true ⟨_, rfl⟩ ⟨List.forall_mem_nil _, trivial⟩
  | product dimension =>
    simp only [imports, Task.Spelled, and_true, List.forall_mem_singleton]
    exact Family.Product.succeeds_file_iff
  | arithmetic dimension =>
    simp only [imports, Task.Spelled, and_true, List.forall_mem_map]
    exact Family.Arithmetic.succeeds_file_iff
  | sum dimension =>
    simp only [imports, Task.Spelled, and_true, List.forall_mem_singleton]
    exact Family.Sum.succeeds_file_iff
  | duality dimension =>
    simp only [imports, Task.Spelled, and_true, List.forall_mem_append, List.forall_mem_cons,
      List.not_mem_nil, false_implies, implies_true, List.forall_mem_map, and_assoc]
    exact Family.Duality.succeeds_file_iff
  | evolvingProduct dimension =>
    simp only [imports, Task.Spelled, and_true, List.forall_mem_singleton]
    exact Family.Evolution.succeeds_productFile_iff
  | evolvingSum dimension =>
    simp only [imports, Task.Spelled, and_true, List.forall_mem_cons, List.not_mem_nil,
      false_implies, implies_true]
    exact Family.Evolution.succeeds_sumFile_iff
  | keys index group =>
    exact Keys.succeeds_file_iff.trans (and_iff_right (List.forall_mem_nil _)).symm
  | lens index record => exact Optics.Lens.succeeds_file_iff reads
  | prism index set => exact Optics.Prism.succeeds_file_iff reads

/-- The code of a job for a checked declaration can be made if and only if its texts are spelled so
that they can stand in it. -/
theorem Job.succeeds_code_iff {job : Job} (reads : job.task.Reads)
    (sound : ∀ imported ∈ job.imports, imported.target.place.Sound) :
    Succeeds job.code ↔ job.Spelled := by
  have paths : (∀ imported ∈ job.imports, Succeeds imported.path) ↔
      ∀ imported ∈ job.imports, imported.target.place.IsLegal :=
    forall₂_congr fun imported member =>
      (Import.known_of_mem member).1.succeeds_path_iff (sound imported member)
  rw [job.succeeds_code_iff_paths reads, paths]
  exact ⟨fun ⟨imports, declaration⟩ => ⟨imports, declaration⟩,
    fun ⟨imports, declaration⟩ => ⟨imports, declaration⟩⟩

end Slotwise
