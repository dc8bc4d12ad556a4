import Slotwise.Check.Request
import Slotwise.Proofs.Outcome
/-!
# Checked declarations

What a declaration that passed its check offers to the code that is generated for it: which of its
texts can be read, whatever the reader expects of them and whoever owns them.
-/

namespace Slotwise

open Outcome

namespace ModelText

/-- The text reads as an identifier that is not reserved. -/
def IsName (text : String) : Prop :=
  text ∉ reservedWords ∧ (Code.Node.identifier? text).isSome = true

theorem succeeds_orInvalid_iff {α : Type} {owner expected text : String} {read : Option α} :
    Succeeds (orInvalid owner expected text read) ↔ read.isSome = true := by
  cases read with
  | none =>
    constructor
    · rintro ⟨_, h⟩
      cases h
    · intro h
      cases h
  | some x => exact ⟨fun _ => rfl, fun _ => ⟨x, rfl⟩⟩

theorem succeeds_identifier_iff {owner expected text : String} :
    Succeeds (identifier owner expected text) ↔ IsName text := by
  unfold identifier IsName
  split
  · next reserved =>
    have inside : text ∈ reservedWords := by simpa using reserved
    constructor
    · rintro ⟨_, h⟩
      cases h
    · rintro ⟨absent, -⟩
      exact absurd inside absent
  · next free =>
    have absent : text ∉ reservedWords := by simpa using free
    rw [succeeds_orInvalid_iff]
    exact ⟨fun read => ⟨absent, read⟩, And.right⟩

theorem identifier?_of_identifier {owner expected text name : String}
    (h : identifier owner expected text = .ok name) : Code.Node.identifier? text = some name := by
  unfold identifier at h
  split at h
  · cases h
  · unfold orInvalid at h
    split at h
    · next read =>
      cases h
      exact read
    · cases h

end ModelText

namespace Check

open ModelText

theorem identifier_eq_ok_iff {owner expected text : String} :
    identifier owner expected text = .ok () ↔ IsName text := by
  rw [← @succeeds_identifier_iff owner expected, identifier, bind_eq_ok_iff]
  constructor
  · rintro ⟨name, read, -⟩
    exact ⟨name, read⟩
  · rintro ⟨name, read⟩
    exact ⟨name, read, rfl⟩

/-- All texts of a field can be read. -/
structure FieldReads (owner : String) (field : Field) : Prop where
  /-- The name. -/
  name : IsName field.name
  /-- The type. -/
  type : Succeeds (ModelText.type owner field.type.name)
  /-- The type variables. -/
  variableNames : ∀ name ∈ field.type.variableNames, IsName name
  /-- The default value. -/
  default : Succeeds (field.defaultValue.mapM (ModelText.expression owner))
  /-- The modifiers. -/
  modifiers : Succeeds (field.modifiers.mapM (ModelText.modifier owner))

theorem fieldReads_of_field {owner : String} {f : Field} (h : field owner f = .ok ()) :
    FieldReads owner f := by
  obtain ⟨_, name, h⟩ := bind_eq_ok_iff.1 h
  obtain ⟨type, typeIs, h⟩ := bind_eq_ok_iff.1 h
  obtain ⟨_, variableNames, h⟩ := bind_eq_ok_iff.1 h
  obtain ⟨default, defaultIs, h⟩ := bind_eq_ok_iff.1 h
  obtain ⟨modifiers, modifiersAre, -⟩ := bind_eq_ok_iff.1 h
  refine ⟨identifier_eq_ok_iff.1 name, ⟨type, typeIs⟩, fun text member => ?_,
    ⟨default, defaultIs⟩, ⟨modifiers, modifiersAre⟩⟩
  exact identifier_eq_ok_iff.1 (forM_eq_ok_iff.1 variableNames text member)

theorem fieldReads_of_fieldsAfter {owner : String} {seen : List String} {all : List Field}
    (h : fieldsAfter owner seen all = .ok ()) : ∀ f ∈ all, FieldReads owner f := by
  induction all generalizing seen with
  | nil => exact List.forall_mem_nil _
  | cons f rest ih =>
    obtain ⟨_, head, h⟩ := bind_eq_ok_iff.1 h
    refine List.forall_mem_cons.2 ⟨fieldReads_of_field head, ?_⟩
    split at h
    · cases h
    · exact ih h

/-- All texts of a record can be read. -/
structure RecordReads (record : Record) : Prop where
  /-- The name. -/
  name : IsName record.name
  /-- The name of the file module. -/
  module : IsName (Naming.snakeCase record.name)
  /-- The fields. -/
  fields : ∀ field ∈ record.fields, FieldReads record.name field
  /-- The names of the setters. -/
  setters : ∀ name ∈ setterNames record, IsName name

theorem recordReads_of_record {r : Record} (h : record r = .ok ()) : RecordReads r := by
  obtain ⟨_, name, h⟩ := bind_eq_ok_iff.1 h
  obtain ⟨_, module, h⟩ := bind_eq_ok_iff.1 h
  obtain ⟨_, -, h⟩ := bind_eq_ok_iff.1 h
  split at h
  · cases h
  · obtain ⟨_, fields, h⟩ := bind_eq_ok_iff.1 h
    obtain ⟨_, setters, -⟩ := bind_eq_ok_iff.1 h
    exact ⟨identifier_eq_ok_iff.1 name, identifier_eq_ok_iff.1 module,
      fieldReads_of_fieldsAfter fields,
      fun text member => identifier_eq_ok_iff.1 (forM_eq_ok_iff.1 setters text member)⟩

/-- All texts of a variant set can be read, except for the values of base fields. -/
structure SetReads (set : VariantSet) : Prop where
  /-- The name. -/
  name : IsName set.name
  /-- The name of the file module. -/
  module : IsName (Naming.snakeCase set.name)
  /-- The base fields. -/
  fields : ∀ field ∈ set.fields, FieldReads set.name field
  /-- The names of the variants. -/
  variants : ∀ variant ∈ set.variants, IsName variant.name
  /-- The names of the constructor functions. -/
  constructors : ∀ variant ∈ set.variants, IsName (Naming.snakeCase variant.name)
  /-- The fields of the variants. -/
  variantFields : ∀ field ∈ variantFields set, FieldReads set.name field
  /-- No field name has two types, and the names of all setters. -/
  setters : ∃ shared, Optics.SharedField.collect set = .ok shared ∧
    ∀ name ∈ setSetters set shared, IsName name

theorem setReads_of_variantSet {set : VariantSet} (h : variantSet set = .ok ()) :
    SetReads set := by
  obtain ⟨_, name, h⟩ := bind_eq_ok_iff.1 h
  obtain ⟨_, module, h⟩ := bind_eq_ok_iff.1 h
  obtain ⟨_, -, h⟩ := bind_eq_ok_iff.1 h
  split at h
  · cases h
  obtain ⟨_, fields, h⟩ := bind_eq_ok_iff.1 h
  obtain ⟨_, -, h⟩ := bind_eq_ok_iff.1 h
  obtain ⟨_, variants, h⟩ := bind_eq_ok_iff.1 h
  obtain ⟨_, -, h⟩ := bind_eq_ok_iff.1 h
  obtain ⟨shared, collected, h⟩ := bind_eq_ok_iff.1 h
  obtain ⟨_, -, h⟩ := bind_eq_ok_iff.1 h
  obtain ⟨_, setters, h⟩ := bind_eq_ok_iff.1 h
  obtain ⟨_, constructors, -⟩ := bind_eq_ok_iff.1 h
  rw [forM_eq_ok_iff] at variants setters constructors
  refine ⟨identifier_eq_ok_iff.1 name, identifier_eq_ok_iff.1 module,
    fieldReads_of_fieldsAfter fields, ?_, ?_, ?_, shared, collected, ?_⟩
  · intro variant member
    obtain ⟨_, name, -⟩ := bind_eq_ok_iff.1 (variants variant member)
    exact identifier_eq_ok_iff.1 name
  · exact fun variant member => identifier_eq_ok_iff.1 (constructors variant member)
  · intro field member
    obtain ⟨variant, inside, among⟩ := List.mem_flatMap.1 member
    obtain ⟨_, -, checked⟩ := bind_eq_ok_iff.1 (variants variant inside)
    obtain ⟨_, fields, -⟩ := bind_eq_ok_iff.1 checked
    exact fieldReads_of_fieldsAfter fields field among
  · exact fun text member => identifier_eq_ok_iff.1 (setters text member)

end Check

end Slotwise
