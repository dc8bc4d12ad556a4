import Slotwise.Proofs.Consistent
import Slotwise.Proofs.Spelled
/-!
# Getters of base fields

The base fields of a variant set can be read on every variant. The getter of a base field has one
arm for each variant, in the order of the variants: it clones the field that the variant overrides,
and gives the value that the variant has for the base field otherwise (`Gets`). Arms look a base
field up by the name that its text reads as, so this holds where the texts are those names.

Main statement: `accepts_and_gets`.
-/

namespace Slotwise.Code

open Naming

/-- What an arm of a getter gives. -/
inductive Given where
  /-- A clone of the live variant's field of this name. -/
  | clone (field : String)
  /-- A value of its own. -/
  | value (expression : Node)

namespace Node

/-- The case that an arm of a getter is for, and what it gives. -/
def given? : Node → Option (List String × Given)
  | arm (fields subject [typed (verbatim [.word name]) (capture [] kept none),
      range none false none] _) none (method (path false [segment cloned none]) "clone" none [] _)
      _ =>
    if kept = cloned then subject.names?.map (·, .clone (withoutRawMark name)) else none
  | arm (fields subject [range none false none] _) none value _ =>
    subject.names?.map (·, .value value)
  | _ => none

theorem given?_clone (subject : Node) (name kept : String) (comma : Bool) :
    (arm (fields subject [fieldIs name (binding kept), range none false none] false) none
      (method (named kept) "clone" none [] false) comma).given? =
      subject.names?.map (·, .clone (withoutRawMark name)) :=
  if_pos rfl

theorem given?_value (subject value : Node) (comma : Bool) :
    (arm (fields subject [range none false none] false) none value comma).given? =
      subject.names?.map (·, .value value) := rfl

end Node

end Slotwise.Code

namespace Slotwise.ModelText

theorem expression?_of_expression {owner text : String} {node : Code.Node}
    (h : expression owner text = .ok node) : Code.Node.expression? text = some node := by
  unfold expression orInvalid at h
  split at h
  · next read =>
    cases h
    exact read
  · cases h

end Slotwise.ModelText

namespace Slotwise.Optics.Prism

open Code Naming Outcome

/-! ## Arms -/

/-- The arm of a variant for a base field. -/
structure GivesOn (base : Field) (variant : Variant) (arm : Node) : Prop where
  /-- The arm is for the case of the variant. -/
  isCase : ∃ name given, emitted? variant.name = some name ∧
    arm.given? = some (["Self", name], given)
  /-- The arm clones the field of the base field's name exactly if the variant overrides it. -/
  clones : base.name ∈ variant.overrides ↔
    ∃ case, arm.given? = some (case, .clone (withoutRawMark base.name))
  /-- The field that is cloned is one of the variant's own, and of the base field's type. -/
  own : base.name ∈ variant.overrides → ∃ field ∈ variant.fields, field.name = base.name ∧
    SharedField.sameType base.type field.type = true
  /-- Otherwise it gives the value that the variant has for the base field. -/
  values : base.name ∉ variant.overrides → ∃ case text expression,
    variant.baseValues.lookup base.name = some text ∧
      Node.expression? text = some expression ∧ arm.given? = some (case, .value expression)

theorem givesOn_of_baseArm {owner name : String} {variant : Variant} {base : Field}
    {code : FieldCode} {arm : Node}
    (named : ModelText.identifier owner "variant name" variant.name = .ok name)
    (spelled : code.name = base.name)
    (own : base.name ∈ variant.overrides → ∃ field ∈ variant.fields, field.name = base.name ∧
      SharedField.sameType base.type field.type = true)
    (h : VariantCode.baseArm owner variant name code = .ok arm) : GivesOn base variant arm := by
  have isName := emitted?_of_identifier named
  have subject : (Node.namedAlong ["Self", name]).names? = some ["Self", withoutRawMark name] := by
    rw [Node.names?_namedAlong]
    rfl
  rw [VariantCode.baseArm, spelled] at h
  by_cases overridden : base.name ∈ variant.overrides
  · have known : variant.overrides.contains base.name = true := by simpa using overridden
    simp only [known, if_true] at h
    obtain rfl := pure_eq_ok_iff.1 h
    have given := Node.given?_clone (.namedAlong ["Self", name]) base.name "value" true
    rw [subject, Option.map_some] at given
    refine ⟨⟨_, _, isName, given⟩, ⟨fun _ => ⟨_, given⟩, fun _ => overridden⟩, own, ?_⟩
    intro absent
    exact absurd overridden absent
  · have absent : variant.overrides.contains base.name = false := by simpa using overridden
    simp only [absent, Bool.false_eq_true, if_false] at h
    cases found : variant.baseValues.lookup base.name with
    | none =>
      rw [found] at h
      cases h
    | some text =>
      rw [found] at h
      obtain ⟨expression, read, h⟩ := bind_eq_ok_iff.1 h
      obtain rfl := pure_eq_ok_iff.1 h
      have given := Node.given?_value (.namedAlong ["Self", name]) expression true
      rw [subject, Option.map_some] at given
      refine ⟨⟨_, _, isName, given⟩, ⟨fun inside => absurd inside overridden, ?_⟩, own, fun _ =>
        ⟨_, text, expression, found, ModelText.expression?_of_expression read, given⟩⟩
      rintro ⟨case, cloned⟩
      cases given.symm.trans cloned

/-! ## Getters -/

/-- The methods that give the base fields. -/
def SetCode.getterRoutines (code : SetCode) : List Routine :=
  code.base.zipIdx.map fun (field, i) =>
    ⟨withoutRawMark field.name, false, [.shared .self],
      [.choice .self (code.variants.filterMap fun variant => variant.baseArms[i]?)]⟩

/-- A method gives a base field of the live variant. -/
structure Gets (set : VariantSet) (base : Field) (routine : Routine) : Prop where
  /-- The method is named for the base field. -/
  name : emitted? base.name = some routine.name
  /-- The method asks for the live variant only. -/
  inputs : routine.inputs = [.shared .self]
  /-- The method has one arm for each variant, in their order. -/
  body : ∃ arms, routine.body = [.choice .self arms] ∧
    List.Forall₂ (GivesOn base) set.variants arms

theorem forall₂_filterMap {α β γ : Type} {R : α → β → Prop} {S : α → γ → Prop}
    {f : β → Option γ} {xs : List α} {ys : List β} (related : List.Forall₂ R xs ys)
    (each : ∀ x y, R x y → ∃ z, f y = some z ∧ S x z) :
    List.Forall₂ S xs (ys.filterMap f) := by
  induction related with
  | nil => exact .nil
  | cons head _ ih =>
    obtain ⟨z, found, holds⟩ := each _ _ head
    rw [List.filterMap_cons_some found]
    exact .cons holds ih

section Getters

variable {set : VariantSet} {code : SetCode} (reads : Reads set code)
  (spelled : ∀ base ∈ set.fields, Node.identifier? base.name = some base.name)

include reads spelled

/-- The code of a base field has the name that the field is written with. -/
theorem name_of_base {i : Nat} {base : Field} {field : FieldCode}
    (baseIs : set.fields[i]? = some base) (fieldIs : code.base[i]? = some field) :
    field.name = base.name := by
  obtain ⟨-, each⟩ := List.forall₂_iff_get.1 (mapM_eq_ok_iff.1 reads.base)
  obtain ⟨inside, rfl⟩ := List.getElem?_eq_some_iff.1 baseIs
  obtain ⟨bound, rfl⟩ := List.getElem?_eq_some_iff.1 fieldIs
  have read := identifier?_of_ofField (each i inside bound)
  simp only [List.get_eq_getElem] at read
  rw [spelled _ (List.getElem_mem inside), Option.some.injEq] at read
  exact read.symm

/-- Each base field has its getter. -/
theorem gets_getterRoutines (legible : Check.Legible set) (consistent : Check.Consistent set) :
    List.Forall₂ (Gets set) set.fields code.getterRoutines := by
  have length : set.fields.length = code.base.length := (length_of_mapM reads.base).symm
  refine List.forall₂_iff_get.2 ⟨by simp [SetCode.getterRoutines, length], ?_⟩
  intro i inside _
  have bound : i < code.base.length := by omega
  have same := name_of_base reads spelled (List.getElem?_eq_getElem inside)
    (List.getElem?_eq_getElem bound)
  simp only [List.get_eq_getElem, SetCode.getterRoutines, List.getElem_map, List.getElem_zipIdx,
    Nat.zero_add]
  have members := (List.forall₂_and_left _ _).2 ⟨fun _ member => member, reads.variants⟩
  refine ⟨?_, rfl, _, rfl, forall₂_filterMap members ?_⟩
  · show emitted? set.fields[i].name = some (withoutRawMark code.base[i].name)
    rw [emitted?, spelled _ (List.getElem_mem inside), same, Option.map_some]
  · rintro variant variantCode ⟨member, readsVariant⟩
    obtain ⟨arms, each⟩ := List.forall₂_iff_get.1 (mapM_eq_ok_iff.1 readsVariant.baseArms)
    have armBound : i < variantCode.baseArms.length := by omega
    refine ⟨_, List.getElem?_eq_getElem armBound,
      givesOn_of_baseArm readsVariant.name same ?_ (each i bound armBound)⟩
    intro overridden
    obtain ⟨base, baseMember, own, ownMember, baseName, ownName, type⟩ :=
      consistent.overrides variant member _ overridden
    -- base fields of one name are one field, so this is the one that was overridden
    have baseIs : base = set.fields[i] :=
      List.inj_on_of_nodup_map legible.base baseMember (List.getElem_mem inside) baseName
    exact ⟨own, ownMember, ownName, baseIs ▸ type⟩

end Getters

theorem methodsOn_baseGetters (code : SetCode) :
    (baseGetters code).flatMap (Node.methodsOn code.typeName) = code.getterRoutines := by
  unfold baseGetters
  split
  · next empty =>
    rw [SetCode.getterRoutines, List.isEmpty_iff.1 empty]
    rfl
  · rw [List.flatMap_singleton, methodsOn_implementation]
    exact filterMap_map_some (fun _ => by rfl) _

/-- The first methods of the type of a variant set are the getters of its base fields. -/
theorem getters_of_file {set : VariantSet} {around : Surroundings} {file : File}
    (h : Prism.file set around = .ok file) :
    ∃ code, SetCode.ofSet set = .ok code ∧
      ∃ others, file.methodsOn code.typeName = code.getterRoutines ++ others := by
  obtain ⟨code, imports, ops, asyncOps, setCode, areUses, -, -, itemsAre⟩ := items_of_file h
  have noMethods : imports.flatMap (Node.methodsOn code.typeName) = [] := by
    rw [List.flatMap_eq_nil_iff]
    intro node member
    exact (Node.methodsOn_of_isUse (areUses node member) _).1
  have enumeration : (enumerationItem set code).methodsOn code.typeName = [] :=
    Node.methodsOn_behind _ rfl
  have aliases (doc name : String) (generics : Option Node) (type : Node) :
      (typeAlias doc name generics type).methodsOn code.typeName = [] := rfl
  let behind : List Node :=
    [.methodsOf code.parameters.declared code.type (code.variants.map constructor),
      .methodsOf code.parameters.declaredOwned code.type
        (transactional code (code.setters .direct) (code.setters .asynchronous))] ++
      (ops ++ asyncOps)
  refine ⟨code, setCode, behind.flatMap (Node.methodsOn code.typeName), ?_⟩
  rw [File.methodsOn, itemsAre, List.flatMap_append, noMethods, List.nil_append, SetCode.items,
    List.flatMap_append, List.flatMap_append, methodsOn_baseGetters]
  simp only [List.flatMap_cons, List.flatMap_nil, enumeration, aliases, List.nil_append]
  rfl

/-! ## Accepted sets -/

/-- The getters of the base fields are the first methods of the type of a variant set. -/
def HasGetters (set : VariantSet) (file : File) : Prop :=
  ∃ type, emitted? set.name = some type ∧ ∃ getters others,
    file.methodsOn type = getters ++ others ∧ List.Forall₂ (Gets set) set.fields getters

/-- A set passes its check exactly if it fits together and is legible, and is refused if it does not
fit together. The getters of an accepted set whose base fields are written as they read give each
base field on each variant. -/
theorem accepts_and_gets (set : VariantSet) :
    (Check.variantSet set = .ok () ↔ Check.Consistent set ∧ Check.Legible set) ∧
      (¬ Check.Consistent set → ∃ failure, Check.variantSet set = .error failure) ∧
      (Check.variantSet set = .ok () →
        (∀ base ∈ set.fields, Node.identifier? base.name = some base.name) →
        ∀ around file, Prism.file set around = .ok file → HasGetters set file) := by
  refine ⟨Check.variantSet_eq_ok_iff, ?_, ?_⟩
  · intro unfit
    cases checked : Check.variantSet set with
    | ok => exact absurd (Check.variantSet_eq_ok_iff.1 checked).1 unfit
    | error failure => exact ⟨failure, rfl⟩
  · intro checked spelled around file generated
    obtain ⟨consistent, legible⟩ := Check.variantSet_eq_ok_iff.1 checked
    obtain ⟨code, setCode, others, methods⟩ := getters_of_file generated
    have reads := reads_of_ofSet setCode
    exact ⟨code.typeName, emitted?_of_identifier reads.name, code.getterRoutines, others, methods,
      gets_getterRoutines reads spelled legible consistent⟩

/-- A set whose base field one variant overrides, and another one gives a value for. -/
def sized : VariantSet :=
  let size : Field := .new "size" (.named "f64")
  (((VariantSet.new "Shape").withField size).withVariant
    ((Variant.new "Dot").withBaseValue "size" "0.0")).withVariant
      ((Variant.new "Circle").overriding size)

/-- Its file. -/
def sizedPrism : { file : File // Prism.file sized besideEachOther = .ok file } :=
  value <| by
    simp only [Prism.file, productImports, typeImports, Ordered.sortedTexts,
      Ordered.sortedSet_eq_foldr]
    decide +kernel

theorem accepts_and_gets_sized :
    ((¬ Check.Consistent (VariantSet.new "Shape")) ∧
      ∃ failure, Check.variantSet (VariantSet.new "Shape") = .error failure) ∧
    Check.variantSet sized = .ok () ∧
      (∀ base ∈ sized.fields, Node.identifier? base.name = some base.name) ∧
      ∃ file, Prism.file sized besideEachOther = .ok file ∧ HasGetters sized file := by
  have unfit : ¬ Check.Consistent (VariantSet.new "Shape") := by
    intro consistent
    exact absurd consistent.several (by decide)
  obtain ⟨_, checked⟩ := exists_of_isOk
    (show (Check.variantSet sized).isOk = true by decide +kernel)
  have spelled : ∀ base ∈ sized.fields, Node.identifier? base.name = some base.name := by
    decide +kernel
  obtain ⟨file, generated⟩ := sizedPrism
  exact ⟨⟨unfit, (accepts_and_gets _).2.1 unfit⟩, checked, spelled, file, generated,
    (accepts_and_gets sized).2.2 checked spelled besideEachOther file generated⟩

end Slotwise.Optics.Prism
