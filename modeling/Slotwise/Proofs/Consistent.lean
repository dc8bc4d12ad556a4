import Slotwise.Proofs.Recurring
/-!
# Variant sets that fit together

A variant set fits together if each variant has a value for each base field and brings along the
type variables of the base fields (`Consistent`). The check of a set passes exactly if it fits
together, all of its texts can be read, and no two things in the code would be called alike
(`variantSet_eq_ok_iff`).

The getters of the base fields rest on this: each has one arm for each variant, which clones the
field that the variant overrides or gives the value that the variant has for it (`Gets`).

Main statement: `accepts_and_gets`.
-/

namespace Slotwise

open Outcome

namespace Outcome

variable {ε β : Type}

/-- A step without an answer succeeds together with what follows it. -/
theorem then_eq_ok_iff {x : Except ε Unit} {f : Unit → Except ε β} {b : β} :
    (x >>= f) = .ok b ↔ x = .ok () ∧ f () = .ok b := by
  rw [bind_eq_ok_iff]
  constructor
  · rintro ⟨⟨⟩, first, second⟩
    exact ⟨first, second⟩
  · rintro ⟨first, second⟩
    exact ⟨(), first, second⟩

/-- What stands behind a guard is reached if the guard does not fail. -/
theorem guard_eq_ok_iff {p : Prop} [Decidable p] {e : ε} {f : Unit → Except ε β}
    {x : Except ε β} {b : β} :
    (if p then (throw e : Except ε Unit) >>= f else x) = .ok b ↔ ¬ p ∧ x = .ok b := by
  split
  · next fails =>
    constructor
    · intro h
      cases h
    · rintro ⟨passes, -⟩
      exact absurd fails passes
  · next passes => exact ⟨fun h => ⟨passes, h⟩, And.right⟩

end Outcome

namespace Check

open ModelText Optics

/-! ## What the checks of fields ask -/

theorem field_eq_ok_iff {owner : String} {f : Field} :
    field owner f = .ok () ↔ FieldReads owner f := by
  constructor
  · exact fieldReads_of_field
  · intro reads
    obtain ⟨type, typeIs⟩ := reads.type
    obtain ⟨default, defaultIs⟩ := reads.default
    obtain ⟨modifiers, modifiersAre⟩ := reads.modifiers
    have variableNames : f.type.variableNames.forM (identifier owner "type variable") = .ok () := by
      rw [forM_eq_ok_iff]
      intro name member
      exact identifier_eq_ok_iff.2 (reads.variableNames name member)
    rw [field, bind_eq_ok_iff]
    refine ⟨(), identifier_eq_ok_iff.2 reads.name, ?_⟩
    simp only [typeIs, variableNames, defaultIs, modifiersAre]
    rfl

theorem fieldsAfter_eq_ok_iff {owner : String} {seen : List String} {all : List Field} :
    fieldsAfter owner seen all = .ok () ↔
      (∀ f ∈ all, FieldReads owner f) ∧ (all.map (·.name)).Nodup ∧ ∀ f ∈ all, f.name ∉ seen := by
  constructor
  · intro h
    exact ⟨fieldReads_of_fieldsAfter h, SharedField.nodup_of_fieldsAfter h⟩
  · rintro ⟨reads, once, fresh⟩
    induction all generalizing seen with
    | nil => rfl
    | cons f rest ih =>
      rw [List.map_cons, List.nodup_cons] at once
      have new : seen.contains f.name = false := by
        simpa using fresh f List.mem_cons_self
      have later : fieldsAfter owner (f.name :: seen) rest = .ok () := by
        refine ih (fun other member => reads other (List.mem_cons_of_mem _ member)) once.2 ?_
        intro other member known
        obtain same | old := List.mem_cons.1 known
        · exact once.1 (same ▸ List.mem_map_of_mem member)
        · exact fresh other (List.mem_cons_of_mem _ member) old
      rw [fieldsAfter, bind_eq_ok_iff]
      refine ⟨(), field_eq_ok_iff.2 (reads f List.mem_cons_self), ?_⟩
      rw [new]
      exact later

theorem fields_eq_ok_iff {owner : String} {all : List Field} :
    fields owner all = .ok () ↔
      (∀ f ∈ all, FieldReads owner f) ∧ (all.map (·.name)).Nodup := by
  rw [fields, fieldsAfter_eq_ok_iff]
  simp

theorem find?_of_nodup {all : List Field} (once : (all.map (·.name)).Nodup) {f : Field}
    (member : f ∈ all) : all.find? (·.name == f.name) = some f := by
  rw [← List.head?_filter, Code.filter_eq_singleton once member, List.head?_cons]

/-! ## What the checks of variants ask -/

/-- An overridden name is a base field and a field of the variant, both of one type. -/
def Overrides (set : VariantSet) (variant : Variant) (name : String) : Prop :=
  ∃ base ∈ set.fields, ∃ own ∈ variant.fields,
    base.name = name ∧ own.name = name ∧ SharedField.sameType base.type own.type = true

/-- A variant overrides a base field, or gives a value for it that reads as an expression. -/
def Supplies (variant : Variant) (base : Field) : Prop :=
  base.name ∈ variant.overrides ∨
    ∃ text, variant.baseValues.lookup base.name = some text ∧
      (Code.Node.expression? text).isSome = true

variable {set : VariantSet} {v : Variant}

theorem override_eq_ok_iff (baseOnce : (set.fields.map (·.name)).Nodup)
    (ownOnce : (v.fields.map (·.name)).Nodup) {name : String} :
    override set v name = .ok () ↔ Overrides set v name := by
  unfold override Overrides
  constructor
  · intro h
    split at h
    · cases h
    · next base found =>
      split at h
      · cases h
      · next own foundOwn =>
        split at h
        · cases h
        · next same =>
          have baseName : base.name = name := beq_iff_eq.1 (List.find?_some found :)
          have ownName : own.name = name := beq_iff_eq.1 (List.find?_some foundOwn :)
          exact ⟨base, List.mem_of_find?_eq_some found, own, List.mem_of_find?_eq_some foundOwn,
            baseName, ownName, by simpa using same⟩
  · rintro ⟨base, baseMember, own, ownMember, rfl, ownName, same⟩
    have foundOwn : v.fields.find? (·.name == base.name) = some own := by
      rw [← ownName]
      exact find?_of_nodup ownOnce ownMember
    simp only [find?_of_nodup baseOnce baseMember, foundOwn, same]
    rfl

theorem baseValue_eq_ok_iff {base : Field} :
    baseValue set v base = .ok () ↔ Supplies v base := by
  unfold baseValue Supplies
  by_cases overridden : base.name ∈ v.overrides
  · simp [overridden, pure, Except.pure]
  · have absent : v.overrides.contains base.name = false := by simpa using overridden
    simp only [absent, overridden, false_or]
    cases found : v.baseValues.lookup base.name with
    | none =>
      constructor
      · intro h
        cases h
      · rintro ⟨_, missing, -⟩
        cases missing
    | some text =>
      have reads := @succeeds_orInvalid_iff _ set.name "expression" text
        (Code.Node.expression? text)
      simp only [Option.some.injEq, exists_eq_left']
      rw [← reads]
      constructor
      · intro h
        obtain ⟨node, read, -⟩ := bind_eq_ok_iff.1 h
        exact ⟨node, read⟩
      · rintro ⟨node, read⟩
        exact bind_eq_ok_iff.2 ⟨node, read, rfl⟩

theorem baseVariables_eq_ok_iff {base : Field} :
    baseVariables set base = .ok () ↔ ∀ name ∈ base.type.variableNames,
      ∃ f ∈ variantFields set, name ∈ f.type.variableNames := by
  have carried (name : String) : (!((variantFields set).flatMap
      (·.type.variableNames)).contains name) = true ↔
      ¬ ∃ f ∈ variantFields set, name ∈ f.type.variableNames := by
    simp
  simp only [baseVariables]
  constructor
  · intro h
    split at h
    · cases h
    · next none =>
      intro name member
      by_contra absent
      exact List.find?_eq_none.1 none name member ((carried name).2 absent)
  · intro each
    split
    · next name found =>
      have absent := (carried name).1 (List.find?_some found :)
      exact absurd (each name (List.mem_of_find?_eq_some found)) absent
    · rfl

/-! ## What the check of a set asks -/

/-- The variants of a set fit together and fit the base fields. -/
structure Consistent (set : VariantSet) : Prop where
  /-- There are two variants or more. -/
  several : 2 ≤ set.variants.length
  /-- No two variants have one name. -/
  variants : (set.variants.map (·.name)).Nodup
  /-- No variant has two fields of one name. -/
  fields : SharedField.DistinctFields set
  /-- What a variant overrides is a base field and a field of its own, both of one type. -/
  overrides : ∀ variant ∈ set.variants, ∀ name ∈ variant.overrides, Overrides set variant name
  /-- Each variant has something for each base field. -/
  values : ∀ variant ∈ set.variants, ∀ base ∈ set.fields, Supplies variant base
  /-- The type variables of the base fields come along with fields of the variants. -/
  typeVariables : ∀ base ∈ set.fields, ∀ name ∈ base.type.variableNames,
    ∃ variant ∈ set.variants, ∃ f ∈ variant.fields, name ∈ f.type.variableNames
  /-- Fields of one name have one type in all variants. -/
  types : SharedField.Agree (variantFields set)

/-- The texts of a set can be read, and name nothing twice. -/
structure Legible (set : VariantSet) : Prop where
  /-- The texts outside of locations and values. -/
  texts : SetReads set
  /-- The modules of its place. -/
  location : Check.location set.name set.location = .ok ()
  /-- No two base fields have one name. -/
  base : (set.fields.map (·.name)).Nodup
  /-- No two methods have one name. -/
  methods : (setMethods set).Nodup
  /-- No two setters have one name. -/
  setters : ∃ shared, SharedField.collect set = .ok shared ∧ (setSetters set shared).Nodup

theorem variant_eq_ok_iff (baseOnce : (set.fields.map (·.name)).Nodup) :
    variant set v = .ok () ↔ IsName v.name ∧ (∀ f ∈ v.fields, FieldReads set.name f) ∧
      (v.fields.map (·.name)).Nodup ∧ (∀ name ∈ v.overrides, Overrides set v name) ∧
      ∀ base ∈ set.fields, Supplies v base := by
  simp only [variant, then_eq_ok_iff, identifier_eq_ok_iff, fields_eq_ok_iff, forM_eq_ok_iff,
    baseValue_eq_ok_iff, and_assoc]
  constructor
  · rintro ⟨name, reads, once, overrides, values⟩
    exact ⟨name, reads, once, fun text member =>
      (override_eq_ok_iff baseOnce once).1 (overrides text member), values⟩
  · rintro ⟨name, reads, once, overrides, values⟩
    exact ⟨name, reads, once, fun text member =>
      (override_eq_ok_iff baseOnce once).2 (overrides text member), values⟩

/-- The type variables of a base field come along with fields of the variants. -/
theorem exists_variableNames_iff {name : String} :
    (∃ f ∈ variantFields set, name ∈ f.type.variableNames) ↔
      ∃ variant ∈ set.variants, ∃ f ∈ variant.fields, name ∈ f.type.variableNames := by
  simp only [variantFields, List.mem_flatMap]
  constructor
  · rintro ⟨f, ⟨variant, member, inside⟩, among⟩
    exact ⟨variant, member, f, inside, among⟩
  · rintro ⟨variant, member, f, inside, among⟩
    exact ⟨f, ⟨variant, member, inside⟩, among⟩

theorem consistent_of_variantSet (h : variantSet set = .ok ()) : Consistent set := by
  have distinct := SharedField.distinctFields_of_variantSet h
  simp only [variantSet, then_eq_ok_iff, guard_eq_ok_iff, fields_eq_ok_iff, forM_eq_ok_iff,
    baseVariables_eq_ok_iff, unique_eq_ok_iff, exists_variableNames_iff] at h
  obtain ⟨-, -, -, several, ⟨-, baseOnce⟩, variants, each, typeVariables, h⟩ := h
  obtain ⟨shared, collected, -⟩ := bind_eq_ok_iff.1 h
  obtain ⟨_, -, recorded, -⟩ := SharedField.recorded_of_collect collected
  have parts (variant : Variant) (member : variant ∈ set.variants) :=
    (variant_eq_ok_iff baseOnce).1 (each variant member)
  refine ⟨by omega, variants, distinct, ?_, ?_, typeVariables, recorded.agree⟩
  · intro variant member
    exact (parts variant member).2.2.2.1
  · intro variant member
    exact (parts variant member).2.2.2.2

theorem legible_of_variantSet (h : variantSet set = .ok ()) : Legible set := by
  have texts := setReads_of_variantSet h
  simp only [variantSet, then_eq_ok_iff, guard_eq_ok_iff, fields_eq_ok_iff] at h
  obtain ⟨-, -, location, -, ⟨-, baseOnce⟩, -, -, -, h⟩ := h
  obtain ⟨shared, collected, h⟩ := bind_eq_ok_iff.1 h
  simp only [then_eq_ok_iff, unique_eq_ok_iff] at h
  obtain ⟨methods, -, -, setters⟩ := h
  exact ⟨texts, location, baseOnce, methods, shared, collected, setters⟩

/-- A set passes its check exactly if it fits together and its texts are legible. -/
theorem variantSet_eq_ok_iff : variantSet set = .ok () ↔ Consistent set ∧ Legible set := by
  constructor
  · intro h
    exact ⟨consistent_of_variantSet h, legible_of_variantSet h⟩
  · rintro ⟨consistent, legible⟩
    obtain ⟨shared, collected, settersOnce⟩ := legible.setters
    obtain ⟨_, collected', settersRead⟩ := legible.texts.setters
    cases collected.symm.trans collected'
    have several : ¬ set.variants.length < 2 := by
      have := consistent.several
      omega
    have each : ∀ variant ∈ set.variants, Check.variant set variant = .ok () := by
      intro variant member
      refine (variant_eq_ok_iff legible.base).2 ⟨legible.texts.variants variant member, ?_,
        consistent.fields variant member, consistent.overrides variant member,
        consistent.values variant member⟩
      intro f inside
      exact legible.texts.variantFields f (List.mem_flatMap.2 ⟨variant, member, inside⟩)
    have rest : (do
        unique set.name "a method" (setMethods set)
        (setSetters set shared).forM (identifier set.name "setter name")
        set.variants.forM fun variant =>
          identifier set.name "constructor name" (Naming.snakeCase variant.name)
        unique set.name "a setter" (setSetters set shared)) = .ok () := by
      simp only [then_eq_ok_iff, forM_eq_ok_iff, identifier_eq_ok_iff, unique_eq_ok_iff]
      exact ⟨legible.methods, settersRead, legible.texts.constructors, settersOnce⟩
    simp only [variantSet, then_eq_ok_iff, guard_eq_ok_iff, identifier_eq_ok_iff,
      fields_eq_ok_iff, forM_eq_ok_iff, baseVariables_eq_ok_iff, unique_eq_ok_iff,
      exists_variableNames_iff]
    refine ⟨legible.texts.name, legible.texts.module, legible.location, several,
      ⟨legible.texts.fields, legible.base⟩, consistent.variants, each, consistent.typeVariables, ?_⟩
    exact bind_eq_ok_iff.2 ⟨shared, collected, rest⟩

end Check

end Slotwise
