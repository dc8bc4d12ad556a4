import Slotwise.Proofs.Shapes
/-!
# The types that generated code declares

Structs, enumerations and aliases are read for what they say about their parts. The parts of the
generated products and sums are their type parameters, so slot `i` of such a type, applied to types
from the highest slot down, is the type for slot `i` (`partType?_of_slots`). This is how the type of
a setter shape is spelled out (`spells_type`).
-/

namespace Slotwise.Code

open Naming

/-! ## Reading declarations -/

/-- A generic type and its parts: the fields of a struct, or the cases of an enumeration. -/
structure Declared where
  /-- The name of the type. -/
  name : String
  /-- The names of the type parameters. -/
  parameters : List String
  /-- The parts with their types. -/
  parts : List (String × Node)

/-- A case with named fields. -/
structure Case where
  /-- The name of the case. -/
  name : String
  /-- The names and types of the fields. -/
  fields : List (String × Node)

/-- An enumeration of cases with named fields. -/
structure Enumeration where
  /-- The name of the type. -/
  name : String
  /-- The cases in order. -/
  cases : List Case

namespace Node

/-- The name of a type parameter. -/
def parameterName? : Node → Option String
  | parameter (path false [segment name none]) _ _ => some (withoutRawMark name)
  | _ => none

/-- A field or a case with one numbered field, with its type. -/
def part? : Node → Option (String × Node)
  | attributed _ part => part.part?
  | visible _ part => part.part?
  | typed (path false [segment name none]) type => some (withoutRawMark name, type)
  | tupleVariant name [type] _ none => some (withoutRawMark name, type)
  | _ => none

/-- The generic type that an item declares. -/
def declared? : Node → Option Declared
  | attributed _ item => item.declared?
  | visible _ item => item.declared?
  | fieldStruct _ name (some (generics parameters _)) _ parts _
  | enumeration name (some (generics parameters _)) _ parts _ =>
    some ⟨withoutRawMark name, parameters.filterMap parameterName?, parts.filterMap part?⟩
  | _ => none

/-- A case with named fields. -/
def case? : Node → Option Case
  | attributed _ case => case.case?
  | fieldVariant name parts _ none => some ⟨withoutRawMark name, parts.filterMap part?⟩
  | _ => none

/-- The enumeration that an item declares. -/
def enumeration? : Node → Option Enumeration
  | attributed _ item => item.enumeration?
  | visible _ item => item.enumeration?
  | enumeration name _ _ cases _ => some ⟨withoutRawMark name, cases.filterMap case?⟩
  | _ => none

/-- The alias that an item declares, with the type that it stands for. -/
def alias? : Node → Option (String × Node)
  | attributed _ item => item.alias?
  | visible _ item => item.alias?
  | typeAlias name _ _ _ (some type) => some (withoutRawMark name, type)
  | _ => none

/-- A generic type and its arguments. -/
def applied? : Node → Option (String × List Node)
  | path false [segment name (some (angled _ arguments _))] =>
    some (withoutRawMark name, arguments)
  | _ => none

end Node

namespace File

/-- The generic types that a file declares. -/
def declared (file : File) : List Declared :=
  file.items.filterMap Node.declared?

/-- The first enumeration of a file. -/
def enumeration? (file : File) : Option Enumeration :=
  file.items.findSome? Node.enumeration?

/-- The type that the alias `name` of a file stands for. -/
def alias? (file : File) (name : String) : Option Node :=
  (file.items.filterMap Node.alias?).lookup name

end File

/-- The type of a part where the type parameters stand for these types. -/
def Declared.partType? (declared : Declared) (arguments : List Node) (part : String) :
    Option Node :=
  match (declared.parts.lookup part).bind Node.names? with
  | some [name] => (declared.parameters.zip arguments).lookup name
  | _ => none

/-- The type of a part of a generic type with its arguments. -/
def World.partType? {Data : Type} (world : World Data) (type : Node) (part : String) :
    Option Node := do
  let (name, arguments) ← type.applied?
  let declared ← (world.files.flatMap File.declared).find? (·.name == name)
  declared.partType? arguments part

/-! ## Parts that are slots -/

@[simp] theorem Node.applied?_applied (name : String) (arguments : List Node) :
    (applied name arguments).applied? = some (withoutRawMark name, arguments) := rfl

@[simp] theorem Node.part?_publicField (name : String) (type : Node) :
    (publicField name type).part? = some (withoutRawMark name, type) := rfl

/-- A type with one part for each of its slots, which run from the highest down to 1. -/
def Declared.ofSlots (name : String) (part : Nat → String) (base : String) (dimension : Nat) :
    Declared :=
  ⟨name, slotNames base dimension 1,
    (slotsDown dimension).map fun slot => (part slot, .named (base ++ toString slot))⟩

theorem zip_slotNames (base : String) (types : List Node) :
    (slotNames base types.length 1).zip types.reverse =
      (types.zipIdx 1).reverse.map fun (type, slot) => (base ++ toString slot, type) := by
  have names : slotNames base types.length 1 =
      (types.zipIdx 1).reverse.map fun (_, slot) => base ++ toString slot := by
    have numbers := Optics.Shape.slotsDown_length types
    rw [slotsDown] at numbers
    rw [slotNames, Nat.add_sub_cancel, numbers, List.map_map]
    rfl
  have reversed : types.reverse = (types.zipIdx 1).reverse.map Prod.fst := by
    rw [List.map_reverse, List.zipIdx_map_fst]
  rw [names, reversed, List.zip_map']

/-- Slot `i` of a type applied to types from the highest slot down is the type for slot `i`. -/
theorem partType?_of_slots {name base : String} {part : Nat → String}
    (injective : Function.Injective part) (markFree : '#' ∉ base.toList) {types : List Node}
    {i : Nat} {type : Node} (here : types[i]? = some type) :
    (Declared.ofSlots name part base types.length).partType? types.reverse (part (i + 1)) =
      some type := by
  have inside : i < types.length := (List.getElem?_eq_some_iff.1 here).1
  have slot : i + 1 ∈ slotsDown types.length := by
    rw [slotsDown, List.mem_reverse, List.mem_range'_1]
    omega
  have partsOnce : (((slotsDown types.length).map fun slot =>
      (part slot, Node.named (base ++ toString slot))).map Prod.fst).Nodup := by
    rw [List.map_map, slotsDown, List.map_reverse, List.nodup_reverse]
    exact List.Nodup.map injective List.nodup_range'
  have partIs := lookup_of_mem partsOnce (List.mem_map.2 ⟨i + 1, slot, rfl⟩)
  have argumentsOnce : (((slotNames base types.length 1).zip types.reverse).map
      Prod.fst).Nodup := by
    rw [zip_slotNames, List.map_map, List.map_reverse, List.nodup_reverse]
    exact Optics.Shape.nodup_numbers (numbered_injective base) types
  have argument : (base ++ toString (i + 1), type) ∈
      (slotNames base types.length 1).zip types.reverse := by
    rw [zip_slotNames, List.mem_map]
    refine ⟨(type, i + 1), List.mem_reverse.2 ?_, rfl⟩
    rw [List.mem_zipIdx_iff_le_and_getElem?_sub]
    exact ⟨by omega, by simpa using here⟩
  have numbered : withoutRawMark (base ++ toString (i + 1)) = base ++ toString (i + 1) :=
    withoutRawMark_numbered base markFree (i + 1)
  simp only [Declared.partType?, Declared.ofSlots, partIs, Option.bind_some, Node.names?_named,
    numbered]
  exact lookup_of_mem argumentsOnce argument

theorem filterMap_parameterName? {base : String} (markFree : '#' ∉ base.toList)
    (dimension : Nat) :
    ((slotNames base dimension 1).map fun name =>
      Node.parameter (.named name) [] none).filterMap Node.parameterName? =
      slotNames base dimension 1 := by
  have each : ∀ name ∈ slotNames base dimension 1, withoutRawMark name = name := by
    intro name member
    obtain ⟨slot, -, rfl⟩ := List.mem_map.1 member
    exact withoutRawMark_numbered base markFree slot
  rw [filterMap_map_some (fun _ => by rfl), List.map_congr_left each, List.map_id']

end Slotwise.Code

namespace Slotwise.Family

open Code Naming

theorem Sum.declared {dimension : Nat} {place : Place} {file : File}
    (h : Sum.file dimension place = .ok file) :
    file.declared = [.ofSlots (sumType dimension) summand "S" dimension] := by
  obtain ⟨path, -, h⟩ := Outcome.bind_eq_ok_iff.1 h
  cases Outcome.pure_eq_ok_iff.1 h
  have enumeration : (Sum.enumeration dimension).declared? =
      some (.ofSlots (sumType dimension) summand "S" dimension) := by
    simp only [Sum.enumeration, Node.isPublic, Node.declared?, Node.parameters,
      filterMap_parameterName? (show '#' ∉ "S".toList by decide), withoutRawMark_sumType,
      List.filterMap_map, Function.comp_def, Node.part?, withoutRawMark_summand,
      List.filterMap_eq_map', Declared.ofSlots]
    rfl
  have function : (Sum.caseFunction dimension).declared? = none := by
    unfold Sum.caseFunction Node.behind
    split <;> rfl
  have injections : ((slotsUp dimension).map (Sum.injectionItem dimension)).filterMap
      Node.declared? = [] := by
    rw [List.filterMap_map, List.filterMap_eq_nil_iff]
    exact fun _ _ => rfl
  rw [File.declared, List.filterMap_append, List.filterMap_append, injections,
    List.filterMap_cons_none rfl, List.filterMap_cons_some enumeration,
    List.filterMap_cons_none rfl, List.filterMap_cons_none function]
  rfl

theorem Product.declared {dimension : Nat} {place : Place} {file : File}
    (h : Product.file dimension place = .ok file) :
    file.declared = [.ofSlots (productType dimension) factor "F" dimension] := by
  obtain ⟨path, -, h⟩ := Outcome.bind_eq_ok_iff.1 h
  cases Outcome.pure_eq_ok_iff.1 h
  have struct : (Product.struct dimension).declared? =
      some (.ofSlots (productType dimension) factor "F" dimension) := by
    simp only [Product.struct, Node.isPublic, Node.declared?, Node.parameters,
      filterMap_parameterName? (show '#' ∉ "F".toList by decide), withoutRawMark_productType,
      List.filterMap_map, Function.comp_def, Node.part?_publicField, withoutRawMark_factor,
      List.filterMap_eq_map', Declared.ofSlots]
    rfl
  have maker : (Product.maker dimension).declared? = none := by
    unfold Product.maker Node.behind
    split <;> rfl
  have mapAll : (Product.mapAll dimension).declared? = none := by
    unfold Product.mapAll Node.behind
    split <;> rfl
  have projections : ((slotsUp dimension).map (Product.projectionItem dimension)).filterMap
      Node.declared? = [] := by
    rw [List.filterMap_map, List.filterMap_eq_nil_iff]
    exact fun _ _ => rfl
  rw [File.declared, List.filterMap_append, List.filterMap_append, projections,
    List.filterMap_cons_none rfl, List.filterMap_cons_some struct,
    List.filterMap_cons_none rfl, List.filterMap_cons_none maker,
    List.filterMap_cons_none mapAll]
  rfl

end Slotwise.Family

/-! ## The types of setter shapes -/

namespace Slotwise.Optics

open Code Naming

/-- A type carries a setter of the flavour for each of these types: nothing for none, the bare
setter for one, and otherwise a component of its own for each, in slot `i` for type `i`. -/
def Shape.Spells {Data : Type} (world : World Data) (flavor : Flavor) (types : List Node)
    (shape : Node) : Prop :=
  match types with
  | [] => shape = .tuple [] false
  | [only] => shape = .applied flavor.setterType [only]
  | types => ∀ i type, types[i]? = some type →
    world.partType? shape (factor (i + 1)) = some (.applied flavor.setterType [type])

section Parts

variable {Data : Type} {world : World Data} {widths : List Nat} {files : List File}
  (filesAre : world.files = Support.file :: files) (family : FamilyFiles widths files)

include filesAre

/-- The type of a family with some dimension is found in the files. -/
theorem find?_declared {typeName part : Nat → String} {base : String} {dimension : Nat}
    (injective : Function.Injective typeName)
    (each : ∀ file ∈ files,
      (∃ other, file.declared = [.ofSlots (typeName other) part base other]) ∨
      ∃ other, file.declared = [other] ∧ other.name ≠ typeName dimension)
    (present : ∃ file ∈ files,
      file.declared = [.ofSlots (typeName dimension) part base dimension]) :
    (world.files.flatMap File.declared).find? (·.name == typeName dimension) =
      some (.ofSlots (typeName dimension) part base dimension) := by
  have none : Support.file.declared = [] := rfl
  rw [filesAre, List.flatMap_cons, none, List.nil_append]
  apply find?_flatMap
  · intro file member
    obtain ⟨other, declared⟩ | ⟨other, declared, different⟩ := each file member
    · by_cases same : other = dimension
      · subst same
        simp [declared, Declared.ofSlots]
      · simp [declared, Declared.ofSlots, injective.ne same]
    · simp [declared, different]
  · obtain ⟨file, member, declared⟩ := present
    exact ⟨file, member, by simp [declared, Declared.ofSlots]⟩

include family

/-- Slot `i` of the sum of some types is the type for slot `i`. -/
theorem partType?_sum {shapes : List Node} {place : Place} {file : File} (present : file ∈ files)
    (generated : Family.Sum.file shapes.length place = .ok file) {i : Nat} {shape : Node}
    (here : shapes[i]? = some shape) :
    world.partType? (.applied (sumType shapes.length) shapes.reverse) (summand (i + 1)) =
      some shape := by
  have each : ∀ other ∈ files,
      (∃ dimension, other.declared = [.ofSlots (sumType dimension) summand "S" dimension]) ∨
      ∃ entry, other.declared = [entry] ∧ entry.name ≠ sumType shapes.length := by
    intro other member
    obtain ⟨width, _, otherIs⟩ | ⟨dimension, _, otherIs⟩ := family.generated other member
    · exact .inr ⟨_, Family.Product.declared otherIs,
        numbered_ne (by decide) (by decide) width shapes.length⟩
    · exact .inl ⟨dimension, Family.Sum.declared otherIs⟩
  have declaredIs := find?_declared filesAre sumType_injective each
    ⟨file, present, Family.Sum.declared generated⟩
  rw [World.partType?, Node.applied?_applied, withoutRawMark_sumType]
  simp only [Option.bind_eq_bind, Option.bind_some, declaredIs]
  exact partType?_of_slots summand_injective (by decide) here

/-- Slot `i` of the product of some types is the type for slot `i`. -/
theorem partType?_product {types : List Node} (width : types.length ∈ widths)
    (two_le : 2 ≤ types.length) {i : Nat} {type : Node} (here : types[i]? = some type) :
    world.partType? (.applied (productType types.length) types.reverse) (factor (i + 1)) =
      some type := by
  have each : ∀ other ∈ files,
      (∃ dimension, other.declared = [.ofSlots (productType dimension) factor "F" dimension]) ∨
      ∃ entry, other.declared = [entry] ∧ entry.name ≠ productType types.length := by
    intro other member
    obtain ⟨width, _, otherIs⟩ | ⟨dimension, _, otherIs⟩ := family.generated other member
    · exact .inl ⟨width, Family.Product.declared otherIs⟩
    · exact .inr ⟨_, Family.Sum.declared otherIs,
        numbered_ne (by decide) (by decide) dimension types.length⟩
  obtain ⟨place, file, present, generated⟩ := family.present _ width two_le
  have declaredIs := find?_declared filesAre productType_injective each
    ⟨file, present, Family.Product.declared generated⟩
  rw [World.partType?, Node.applied?_applied, withoutRawMark_productType]
  simp only [Option.bind_eq_bind, Option.bind_some, declaredIs]
  exact partType?_of_slots factor_injective (by decide) here

/-- The type of a shape says what it is made of. -/
theorem spells_type (flavor : Flavor) {types : List Node} (width : types.length ∈ widths) :
    Shape.Spells world flavor types (Shape.type flavor types) := by
  match types, width with
  | [], _ => rfl
  | [_], _ => rfl
  | first :: second :: rest, width =>
    intro i type here
    let setters := (first :: second :: rest).map fun type => Node.applied flavor.setterType [type]
    have length : setters.length = (first :: second :: rest).length := List.length_map _
    have setterIs : setters[i]? = some (.applied flavor.setterType [type]) := by
      rw [List.getElem?_map, here, Option.map_some]
    have two_le : 2 ≤ setters.length := by
      rw [length]
      simp
    have part := partType?_product filesAre family (length ▸ width) two_le setterIs
    rwa [length, ← List.map_reverse] at part

end Parts

end Slotwise.Optics
