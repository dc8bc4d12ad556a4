import Mathlib.Data.Nat.PSub
import Slotwise.Family.Arithmetic
import Slotwise.Proofs.Families
import Slotwise.Proofs.Imports
import Slotwise.Proofs.Subtrees
import Slotwise.Proofs.Typing
/-!
# Arithmetic round trips

A split point cuts the slots of a product into a low side and a high side. Read as maps,
`splitN_first` takes the sides apart and `timesN_first` joins them (`invoke_split`,
`invoke_times`), so each undoes the other. A side that is one slot wide is a bare value: `sideOf`
says so of values and `inhabits_sideType` of types, for the same slots.

The generator subtracts numbers of slots in a dozen places. `splitPoint?` is the same generator
with subtractions that have no result below zero, and it has the same result (`splitPoint?_eq`).

Main statement: the file of the arithmetic of a dimension is `Sound` (`sound_of_file`).
-/

namespace Slotwise.Code.Node

/-- The name of a step of a path. -/
@[simp] def segmentName? : Node → Option String
  | segment name _ => some name
  | _ => none

/-- The names that paths go along. -/
abbrev segmentNames (node : Node) : List String :=
  node.collect segmentName?

end Slotwise.Code.Node

namespace Slotwise.Family

open Code Naming

namespace Arithmetic

variable {Data : Type} {world : World Data} {owner : String} {scope : Variables Data}
  {dimension first : Nat}

/-! ## Sides -/

/-- A side with these values in its slots: a bare value if it is one slot wide. -/
def sideOf (width : Nat) (value : Nat → Value Data) : Value Data :=
  if width = 1 then value 1 else productOf width value

theorem sideOf_congr {width : Nat} {value other : Nat → Value Data} (filled : 1 ≤ width)
    (same : ∀ slot, 1 ≤ slot → slot ≤ width → value slot = other slot) :
    sideOf width value = sideOf width other := by
  unfold sideOf
  split
  · exact same 1 (Nat.le_refl 1) filled
  · exact productOf_congr same

/-- Slot `slot` of a side. -/
theorem eval_sideSlot {side : String} {width slot : Nat} {value : Nat → Value Data}
    (sideIs : eval world owner scope (.named side) = some (sideOf width value))
    (positive : 1 ≤ slot) (below : slot ≤ width) :
    eval world owner scope (sideSlot side width slot) = some (value slot) := by
  unfold sideSlot
  unfold sideOf at sideIs
  split at sideIs
  · next bare =>
    have only : slot = 1 := by omega
    rw [if_pos bare, sideIs, only]
  · next wide =>
    rw [if_neg wide]
    exact eval_factor sideIs positive below

/-- The slots from `low` to `high` of a product as a side. -/
theorem eval_sideValue {low high : Nat} {value : Nat → Value Data}
    (productIs : eval world owner scope (.named "product") = some (productOf dimension value))
    (positive : 1 ≤ low) (filled : low ≤ high) (below : high ≤ dimension) :
    eval world owner scope (sideValue low high) =
      some (sideOf (high + 1 - low) fun slot => value (low + slot - 1)) := by
  unfold sideValue
  by_cases bare : low = high
  · subst bare
    have width : low + 1 - low = 1 := by omega
    rw [if_pos rfl, eval_factor productIs positive below, sideOf, if_pos width]
    rfl
  · have width : high + 1 - low ≠ 1 := by omega
    rw [if_neg bare, sideOf, if_neg width]
    refine eval_productLiteral (fun slot above within => ?_) false
    exact eval_factor productIs (by omega) (by omega)

/-! ## Joining and splitting -/

/-- The functions for the split points of a dimension are at hand. -/
structure AtHand (world : World Data) (dimension : Nat) : Prop where
  /-- The functions that join. -/
  times : ∀ first, 1 ≤ first → first < dimension →
    world.function? s!"times{dimension}_{first}" = (times dimension first).routine?
  /-- The functions that split. -/
  split : ∀ first, 1 ≤ first → first < dimension →
    world.function? s!"split{dimension}_{first}" = (split dimension first).routine?

variable (hand : AtHand world dimension)

include hand

/-- The low side fills the first slots of the product and the high side the others, in order. -/
theorem invoke_times (positive : 1 ≤ first) (below : first < dimension)
    (high low : Nat → Value Data) :
    world.invoke s!"times{dimension}_{first}"
        [sideOf (dimension - first) high, sideOf first low] =
      some (productOf dimension fun slot =>
        if slot ≤ first then low slot else high (slot - first)) := by
  have inputs (highType lowType : Node) : bindInputs ""
      [.input "high" highType, .input "low" lowType]
      [sideOf (dimension - first) high, sideOf first low] =
      some [("high", sideOf (dimension - first) high), ("low", sideOf first low)] := by simp
  rw [World.invoke, hand.times first positive below]
  simp only [times, Node.publicFunction, Node.isPublic, Node.routine?, Option.bind_some]
  rw [call_routine (inputs _ _)]
  simp only [List.any_nil, Bool.false_eq_true, if_false, run_singleton, Product.value]
  refine eval_productLiteral (fun slot above within => ?_) true
  by_cases isHigh : slot > first
  · rw [if_pos isHigh, if_neg (by omega)]
    exact eval_sideSlot (by simp) (by omega) (by omega)
  · rw [if_neg isHigh, if_pos (by omega)]
    exact eval_sideSlot (by simp [List.lookup_cons]) above (by omega)

/-- The high side comes first, and each side keeps its slots in order. -/
theorem invoke_split (positive : 1 ≤ first) (below : first < dimension)
    (value : Nat → Value Data) :
    world.invoke s!"split{dimension}_{first}" [productOf dimension value] =
      some (productOf 2 fun side =>
        if side = 2 then sideOf (dimension - first) fun slot => value (first + slot)
        else sideOf first value) := by
  have inputs (type : Node) : bindInputs "" [.input "product" type] [productOf dimension value] =
      some [("product", productOf dimension value)] := by simp
  have productIs : eval world "" [("product", productOf dimension value)] (.named "product") =
      some (productOf dimension value) := by simp
  rw [World.invoke, hand.split first positive below]
  simp only [split, Node.publicFunction, Node.isPublic, Node.routine?, Option.bind_some]
  rw [call_routine (inputs _)]
  simp only [List.any_nil, Bool.false_eq_true, if_false, run_singleton, Product.value]
  refine eval_productLiteral (fun side _ _ => ?_) true
  by_cases isHigh : side = 2
  · rw [if_pos isHigh, if_pos isHigh, eval_sideValue productIs (by omega) below (by omega)]
    have width : dimension + 1 - (first + 1) = dimension - first := by omega
    rw [width]
    congr 1
    refine sideOf_congr (by omega) fun slot _ _ => ?_
    congr 1
    omega
  · rw [if_neg isHigh, if_neg isHigh, eval_sideValue productIs (Nat.le_refl 1) positive (by omega)]
    congr 1
    refine sideOf_congr positive fun slot _ _ => ?_
    congr 1
    omega

omit hand

/-! ## Types -/

/-- The slots of a side, counted from the first slot of the side. -/
theorem map_range'_reverse {α : Type} (f : Nat → α) (low width : Nat) :
    (List.range' low width).reverse.map f = (slotsDown width).map fun slot => f (low + slot - 1) := by
  rw [slotsDown, List.map_reverse, List.map_reverse]
  refine congrArg List.reverse (List.ext_getElem (by simp) fun index _ _ => ?_)
  have slot : low + (1 + index) - 1 = low + index := by omega
  simp only [List.getElem_map, List.getElem_range', Nat.one_mul, slot]

theorem slotNames_eq (base : String) (low high : Nat) :
    (slotNames base high low).map Node.named =
      (slotsDown (high + 1 - low)).map fun slot => .named s!"{base}{low + slot - 1}" := by
  rw [slotNames, List.map_map, map_range'_reverse]
  rfl

/-- What belongs to the type of a side are the sides whose slots belong to the parameters from
`low` to `high`. -/
theorem inhabits_sideType {belongs : String → Value Data → Prop} {low high : Nat}
    (filled : low ≤ high) {value : Value Data} :
    Inhabits belongs (sideType low high) value ↔
      ∃ slots, value = sideOf (high + 1 - low) slots ∧
        ∀ slot, 1 ≤ slot → slot ≤ high + 1 - low → belongs s!"F{low + slot - 1}" (slots slot) := by
  unfold sideType
  by_cases bare : low = high
  · subst bare
    have width : low + 1 - low = 1 := by omega
    rw [if_pos rfl, inhabits_named, width]
    constructor
    · intro member
      refine ⟨fun _ => value, rfl, fun slot above below => ?_⟩
      have only : slot = 1 := by omega
      subst only
      exact member
    · rintro ⟨slots, rfl, each⟩
      exact each 1 (Nat.le_refl 1) (Nat.le_refl 1)
  · have width : high + 1 - low ≠ 1 := by omega
    rw [if_neg bare, Product.type, Node.appliedTo, slotNames_eq, inhabits_product]
    simp only [inhabits_named, sideOf, if_neg width]

/-- What belongs to the type of a product are the products whose slots belong to the parameters. -/
theorem inhabits_type {belongs : String → Value Data → Prop} {value : Value Data} :
    Inhabits belongs (Product.type dimension (slotNames "F" dimension 1)) value ↔
      ∃ slots, value = productOf dimension slots ∧
        ∀ slot, 1 ≤ slot → slot ≤ dimension → belongs s!"F{slot}" (slots slot) := by
  have names : (slotNames "F" dimension 1).map Node.named =
      (slotsDown dimension).map fun slot => .named s!"F{slot}" := by
    rw [slotNames, List.map_map]
    rfl
  rw [Product.type, Node.appliedTo, names, inhabits_product]
  simp only [inhabits_named]

theorem sideType_eq_named_iff {low high : Nat} :
    (∃ name, sideType low high = .named name) ↔ low = high := by
  unfold sideType
  split
  · next bare => exact ⟨fun _ => bare, fun _ => ⟨_, rfl⟩⟩
  · next wide =>
    refine ⟨fun ⟨name, same⟩ => ?_, fun bare => absurd bare wide⟩
    rw [Product.type, Node.appliedTo, Node.applied, Node.named] at same
    cases same

theorem signature?_times (dimension first : Nat) :
    (times dimension first).signature? =
      some ([sideType (first + 1) dimension, sideType 1 first],
        Product.type dimension (slotNames "F" dimension 1)) := rfl

theorem signature?_split (dimension first : Nat) :
    (split dimension first).signature? =
      some ([Product.type dimension (slotNames "F" dimension 1)],
        .applied (productType 2) [sideType (first + 1) dimension, sideType 1 first]) := rfl

/-! ## Multiplications -/

/-- The multiplication of the sides of a split point. -/
def mulItem (dimension first : Nat) : Node :=
  .traitFor (some (.parameters (slotNames "F" dimension 1)))
    (.applied "Mul" [sideType 1 first]) (sideType (first + 1) dimension)
    [.typeAlias "Output" none [] none
        (some (Product.type dimension (slotNames "F" dimension 1))),
      .function [] "mul" none [.self, .input "low" (sideType 1 first)] false
        (some (.namedAlong ["Self", "Output"])) none
        (some (.block [] [.call (.named s!"times{dimension}_{first}") [.self, .named "low"] false]))]

/-- The operands of an implementation of multiplication. -/
def multiplication? : Node → Option (Node × Node)
  | .implementation _ _ _
      (some (.path _ [.segment "Mul" (some (.angled _ [low] _))])) high _ _ => some (high, low)
  | _ => none

/-- How many slots a type has: as many as it has arguments, and one if it has none. -/
def width : Node → Nat
  | .path _ [.segment _ (some (.angled _ arguments _))] => arguments.length
  | _ => 1

theorem width_sideType (low high : Nat) :
    width (sideType low high) = high + 1 - low := by
  unfold sideType
  split
  · have only : high + 1 - low = 1 := by omega
    rw [only]
    rfl
  · simp [Product.type, Node.appliedTo, Node.applied, width, slotNames]

theorem multiplication_eq (dimension first : Nat) :
    multiplication dimension first =
      if first ≥ 2 ∧ dimension - first ≥ 2 then [mulItem dimension first] else [] := rfl

/-! ## Names of products -/

/-- If the name is that of a product type, the product has two slots at least and no more than the
dimension. -/
def Covered (dimension : Nat) (name : String) : Prop :=
  ∀ width, name = productType width → 2 ≤ width ∧ width ≤ dimension

theorem covered_productType {width : Nat} (two_le : 2 ≤ width) (below : width ≤ dimension) :
    Covered dimension (productType width) := by
  intro other same
  cases productType_injective same
  exact ⟨two_le, below⟩

theorem covered_of_head {name : String} (other : name.toList.head? ≠ some 'P') :
    Covered dimension name := by
  rintro width rfl
  exact absurd (by simp [productType]) other

theorem covered_slotNames (high low : Nat) :
    ∀ name ∈ slotNames "F" high low, Covered dimension name := by
  intro name member
  obtain ⟨slot, -, rfl⟩ := List.mem_map.1 member
  exact covered_of_head (by simp)

/-- Every name in a piece of code is covered. -/
def AllCovered (dimension : Nat) (node : Node) : Prop :=
  ∀ name ∈ node.segmentNames, Covered dimension name

theorem allCovered_sideType {low high : Nat} (positive : 1 ≤ low) (filled : low ≤ high)
    (below : high ≤ dimension) : AllCovered dimension (sideType low high) := by
  unfold sideType AllCovered
  split
  · have names : (Node.named s!"F{low}").segmentNames = [s!"F{low}"] := by simp [Node.named]
    rw [names, List.forall_mem_singleton]
    exact covered_of_head (by simp)
  · have names : (Product.type (high + 1 - low) (slotNames "F" high low)).segmentNames =
        productType (high + 1 - low) :: slotNames "F" high low := by
      simp [Product.type, Node.appliedTo, Node.applied, Node.named, List.flatMap_map]
    rw [names, List.forall_mem_cons]
    exact ⟨covered_productType (by omega) (by omega), covered_slotNames high low⟩

theorem allCovered_sideSlot {side : String} (other : side.toList.head? ≠ some 'P')
    (width slot : Nat) : AllCovered dimension (sideSlot side width slot) := by
  have names : (sideSlot side width slot).segmentNames = [side] := by
    unfold sideSlot
    split <;> simp [Node.named]
  rw [AllCovered, names, List.forall_mem_singleton]
  exact covered_of_head other

theorem allCovered_sideValue {low high : Nat} (positive : 1 ≤ low) (filled : low ≤ high)
    (below : high ≤ dimension) : AllCovered dimension (sideValue low high) := by
  have product : Covered dimension "product" := covered_of_head (by decide)
  unfold sideValue AllCovered
  split
  · have names : (Node.member (.named "product") (factor low)).segmentNames = ["product"] := by
      simp [Node.named]
    rw [names, List.forall_mem_singleton]
    exact product
  · have names : (Node.fields (.named (productType (high + 1 - low)))
        ((slotsDown (high + 1 - low)).map fun slot =>
          .fieldIs (factor slot) (.member (.named "product") (factor (low + slot - 1))))
        false).segmentNames =
        productType (high + 1 - low) :: (slotsDown (high + 1 - low)).flatMap fun _ => ["product"] := by
      simp [Node.named, Node.fieldIs, List.flatMap_map]
    rw [names, List.forall_mem_cons, List.forall_mem_flatMap]
    refine ⟨covered_productType (by omega) (by omega), fun _ _ => ?_⟩
    exact List.forall_mem_singleton.2 product

/-- The code of a split point names only products of two slots and more, up to the dimension. -/
theorem allCovered_splitPoint (positive : 1 ≤ first) (below : first < dimension) {item : Node}
    (member : item ∈ splitPoint dimension first) : AllCovered dimension item := by
  have high : AllCovered dimension (sideType (first + 1) dimension) :=
    allCovered_sideType (by omega) (by omega) (Nat.le_refl dimension)
  have low : AllCovered dimension (sideType 1 first) :=
    allCovered_sideType (Nat.le_refl 1) positive (by omega)
  have slots : ∀ name ∈ slotNames "F" dimension 1, Covered dimension name :=
    covered_slotNames dimension 1
  have whole : Covered dimension (productType dimension) :=
    covered_productType (by omega) (Nat.le_refl dimension)
  have pair : Covered dimension (productType 2) := covered_productType (Nat.le_refl 2) (by omega)
  have doc : Covered dimension "doc" := covered_of_head (by decide)
  rw [splitPoint, List.mem_append, List.mem_pair] at member
  obtain (rfl | rfl) | member := member
  · have names : (times dimension first).segmentNames = "doc" :: (slotNames "F" dimension 1 ++
        ((sideType (first + 1) dimension).segmentNames ++ ((sideType 1 first).segmentNames ++
          productType dimension :: (slotNames "F" dimension 1 ++
            productType dimension :: (slotsDown dimension).flatMap fun slot =>
              (if slot > first then sideSlot "high" (dimension - first) (slot - first)
                else sideSlot "low" first slot).segmentNames)))) := by
      simp [times, Node.named, Node.publicFunction, Node.isPublic, Node.docLine,
        Node.textAttribute, Node.parameters, Node.input, Node.binding, Product.value,
        Product.type, Node.appliedTo, Node.applied, Node.fieldIs, List.flatMap_map]
    rw [AllCovered, names]
    simp only [List.forall_mem_cons, List.forall_mem_append, List.forall_mem_flatMap]
    refine ⟨doc, slots, high, low, whole, slots, whole, fun slot _ => ?_⟩
    split
    · exact allCovered_sideSlot (by decide) _ _
    · exact allCovered_sideSlot (by decide) _ _
  · have names : (split dimension first).segmentNames = "doc" :: (slotNames "F" dimension 1 ++
        productType dimension :: (slotNames "F" dimension 1 ++ productType 2 ::
          ((sideType (first + 1) dimension).segmentNames ++ ((sideType 1 first).segmentNames ++
            productType 2 :: (slotsDown 2).flatMap fun slot =>
              (if slot = 2 then sideValue (first + 1) dimension
                else sideValue 1 first).segmentNames)))) := by
      simp [split, Node.named, Node.publicFunction, Node.isPublic, Node.docLine,
        Node.textAttribute, Node.parameters, Node.input, Node.binding, Product.value,
        Product.type, Node.appliedTo, Node.applied, Node.fieldIs, List.flatMap_map]
    rw [AllCovered, names]
    simp only [List.forall_mem_cons, List.forall_mem_append, List.forall_mem_flatMap]
    refine ⟨doc, slots, whole, slots, pair, high, low, pair, fun slot _ => ?_⟩
    split
    · exact allCovered_sideValue (by omega) below (Nat.le_refl dimension)
    · exact allCovered_sideValue (Nat.le_refl 1) positive (by omega)
  · rw [multiplication_eq] at member
    split at member
    · obtain rfl := List.mem_singleton.1 member
      have names : (mulItem dimension first).segmentNames = slotNames "F" dimension 1 ++ "Mul" ::
          ((sideType 1 first).segmentNames ++ ((sideType (first + 1) dimension).segmentNames ++
            productType dimension :: (slotNames "F" dimension 1 ++ "self" ::
              ((sideType 1 first).segmentNames ++
                ["Self", "Output", s!"times{dimension}_{first}", "self", "low"])))) := by
        simp [mulItem, Node.named, Node.traitFor, Node.self, Node.namedAlong, Node.parameters,
          Node.input, Node.binding, Product.type, Node.appliedTo, Node.applied, List.flatMap_map]
      rw [AllCovered, names]
      simp only [List.forall_mem_cons, List.forall_mem_append]
      refine ⟨slots, ?_, low, high, whole, slots, ?_, low, ?_, ?_, ?_, ?_, ?_, by simp⟩ <;>
        exact covered_of_head (by simp)
    · cases member

/-! ## Subtraction -/

/-- The type of a side, where a subtraction that would go below zero has no result. -/
def sideType? (low high : Nat) : Option Node := do
  let width := (← high.psub low) + 1
  return if width = 1 then .named s!"F{low}" else Product.type width (slotNames "F" high low)

/-- The value of a side, with subtractions that may have no result. -/
def sideValue? (low high : Nat) : Option Node := do
  let width := (← high.psub low) + 1
  if width = 1 then return .member (.named "product") (factor low)
  let items ← (List.range' low width).reverse.mapM fun slot => do
    return .fieldIs (factor ((← slot.psub low) + 1)) (.member (.named "product") (factor slot))
  return .fields (.named (productType width)) items false

/-- What stands in a slot of the product of both sides, with subtractions that may have no
result. -/
def joined? (first second slot : Nat) : Option Node :=
  if slot > first then do return sideSlot "high" second (← slot.psub first)
  else return sideSlot "low" first slot

/-- The code of a split point, with subtractions that may have no result. -/
def splitPoint? (dimension first : Nat) : Option (List Node) := do
  let slots := slotNames "F" dimension 1
  let second ← dimension.psub first
  let highType ← sideType? (first + 1) dimension
  let lowType ← sideType? 1 first
  let joined ← (slotsDown dimension).mapM fun slot => do
    return .fieldIs (factor slot) (← joined? first second slot)
  let highValue ← sideValue? (first + 1) dimension
  let lowValue ← sideValue? 1 first
  let multiplied : List Node :=
    if first ≥ 2 ∧ second ≥ 2 then
      [.traitFor (some (.parameters slots)) (.applied "Mul" [lowType]) highType
        [.typeAlias "Output" none [] none (some (Product.type dimension slots)),
          .function [] "mul" none [.self, .input "low" lowType] false
            (some (.namedAlong ["Self", "Output"])) none
            (some (.block [] [.call (.named s!"times{dimension}_{first}")
              [.self, .named "low"] false]))]]
    else []
  return [
    .attributed
      [.docLine (s!" Multiplies {second} high factor(s) with {first} low factor(s) into a " ++
        s!"[`{productType dimension}`].")]
      (.publicFunction s!"times{dimension}_{first}" (some (.parameters slots))
        [.input "high" highType, .input "low" lowType] false
        (some (Product.type dimension slots))
        [.fields (.named (productType dimension)) joined true]),
    .attributed
      [.docLine (s!" Splits a [`{productType dimension}`] into its {second} high and " ++
        s!"{first} low factor(s); inverse of [`times{dimension}_{first}`].")]
      (.publicFunction s!"split{dimension}_{first}" (some (.parameters slots))
        [.input "product" (Product.type dimension slots)] false
        (some (.applied (productType 2) [highType, lowType]))
        [.fields (.named (productType 2))
          [.fieldIs (factor 2) highValue, .fieldIs (factor 1) lowValue] true])] ++ multiplied

theorem sideType?_eq {low high : Nat} (filled : low ≤ high) :
    sideType? low high = some (sideType low high) := by
  have width : high - low + 1 = high + 1 - low := by omega
  have bare : high + 1 - low = 1 ↔ low = high := by omega
  rw [sideType?, Nat.psub_eq_sub filled]
  simp only [Option.bind_eq_bind, Option.bind_some, width, bare, sideType]
  rfl

theorem sideValue?_eq {low high : Nat} (filled : low ≤ high) :
    sideValue? low high = some (sideValue low high) := by
  have width : high - low + 1 = high + 1 - low := by omega
  have bare : high + 1 - low = 1 ↔ low = high := by omega
  have items : ((List.range' low (high + 1 - low)).reverse.mapM fun slot =>
      (slot.psub low).bind fun i =>
        some (Node.fieldIs (factor (i + 1)) (.member (.named "product") (factor slot)))) =
      some ((slotsDown (high + 1 - low)).map fun slot =>
        .fieldIs (factor slot) (.member (.named "product") (factor (low + slot - 1)))) := by
    rw [Outcome.mapM_eq_some_map (g := fun slot =>
      .fieldIs (factor (slot - low + 1)) (.member (.named "product") (factor slot))) ?_,
      map_range'_reverse]
    · congr 1
      refine List.map_congr_left fun slot member => ?_
      obtain ⟨positive, -⟩ := mem_slotsDown.1 member
      have same : low + slot - 1 - low + 1 = slot := by omega
      rw [same]
    · intro slot member
      rw [List.mem_reverse, List.mem_range'_1] at member
      rw [Nat.psub_eq_sub member.1]
      rfl
  rw [sideValue?, Nat.psub_eq_sub filled]
  simp only [Option.bind_eq_bind, Option.bind_some, width, bare, Option.pure_def, items, sideValue]
  split <;> rfl

/-- No subtraction goes below zero, and the code is the same. -/
theorem splitPoint?_eq (positive : 1 ≤ first) (below : first < dimension) :
    splitPoint? dimension first = some (splitPoint dimension first) := by
  have joined : ((slotsDown dimension).mapM fun slot =>
      (joined? first (dimension - first) slot).bind fun content =>
        some (Node.fieldIs (factor slot) content)) =
      some ((slotsDown dimension).map fun slot => .fieldIs (factor slot)
        (if slot > first then sideSlot "high" (dimension - first) (slot - first)
          else sideSlot "low" first slot)) := by
    refine Outcome.mapM_eq_some_map fun slot _ => ?_
    unfold joined?
    split
    · next above =>
      rw [Nat.psub_eq_sub (by omega)]
      rfl
    · rfl
  rw [splitPoint?, Nat.psub_eq_sub (by omega)]
  simp only [Option.bind_eq_bind, Option.bind_some, Option.pure_def, joined,
    sideType?_eq (show first + 1 ≤ dimension by omega), sideType?_eq positive,
    sideValue?_eq (show first + 1 ≤ dimension by omega), sideValue?_eq positive]
  rfl

/-! ## The file -/

section Items

variable {place : Place} {file : File}

/-- The imports stand before the code of the split points, one for each product up to the
dimension. -/
theorem items_file (h : Arithmetic.file dimension place = .ok file) :
    ∃ imports,
      file.items = (if dimension ≥ 4 then [Node.importing ["std", "ops", "Mul"]] else []) ++ imports ++
        (List.range' 1 (dimension - 1)).flatMap (splitPoint dimension) ∧
      (∀ width, 2 ≤ width → width ≤ dimension → ∃ path : List String,
        ItemPath.ofFileItem place (productModule width) (productType width) = .ok path ∧
          Node.importing path ∈ imports) ∧
      ∀ item ∈ imports, ∃ path : List String, path.head? = some "crate" ∧
        item = Node.importing path := by
  obtain ⟨imports, importsOk, h⟩ := Outcome.bind_eq_ok_iff.1 h
  cases Outcome.pure_eq_ok_iff.1 h
  refine ⟨imports, rfl, fun width two_le below => ?_, fun item member => ?_⟩
  · have inside : width ∈ List.range' 2 (dimension - 1) :=
      List.mem_range'_1.2 ⟨two_le, by omega⟩
    obtain ⟨item, member, found⟩ := Outcome.exists_of_mapM importsOk inside
    obtain ⟨path, pathOk, rfl⟩ := Outcome.map_eq_ok_iff.1 found
    exact ⟨path, pathOk, member⟩
  · obtain ⟨width, -, found⟩ := Outcome.mem_of_mapM importsOk member
    obtain ⟨path, pathOk, rfl⟩ := Outcome.map_eq_ok_iff.1 found
    let imported : Import := ⟨⟨.product width, place⟩, productType width⟩
    exact ⟨path, head?_of_path (show imported.path = .ok path from pathOk), rfl⟩

/-- The items of a split point. -/
theorem mem_splitPoint {item : Node} : item ∈ splitPoint dimension first ↔
    item = times dimension first ∨ item = split dimension first ∨
      (first ≥ 2 ∧ dimension - first ≥ 2) ∧ item = mulItem dimension first := by
  rw [splitPoint, multiplication_eq, List.mem_append, List.mem_pair]
  split
  · next wide => simp [wide, or_assoc]
  · next narrow => simp [narrow]

/-- Every item is an import or belongs to the code of a split point. -/
theorem mem_items {item : Node} (h : Arithmetic.file dimension place = .ok file)
    (member : item ∈ file.items) :
    (∃ path, item = .importing path ∧
      (path.head? = some "crate" ∨ path = ["std", "ops", "Mul"] ∧ dimension ≥ 4)) ∨
    ∃ first, 1 ≤ first ∧ first < dimension ∧ item ∈ splitPoint dimension first := by
  obtain ⟨imports, items, -, rooted⟩ := items_file h
  rw [items, List.mem_append, List.mem_append, List.mem_flatMap] at member
  obtain (outside | inside) | ⟨first, among, member⟩ := member
  · split at outside
    · next four_le =>
      exact .inl ⟨_, List.mem_singleton.1 outside, .inr ⟨rfl, four_le⟩⟩
    · cases outside
  · obtain ⟨path, root, rfl⟩ := rooted item inside
    exact .inl ⟨path, rfl, .inl root⟩
  · rw [List.mem_range'_1] at among
    exact .inr ⟨first, among.1, by omega, member⟩

theorem splitPoint_subset (h : Arithmetic.file dimension place = .ok file) (positive : 1 ≤ first)
    (below : first < dimension) {item : Node} (member : item ∈ splitPoint dimension first) :
    item ∈ file.items := by
  obtain ⟨imports, items, -, -⟩ := items_file h
  rw [items, List.mem_append, List.mem_flatMap]
  exact .inr ⟨first, List.mem_range'_1.2 ⟨positive, by omega⟩, member⟩

theorem name_times (dimension first : Nat) :
    (times dimension first).routine?.map Routine.name = some s!"times{dimension}_{first}" := by
  have plain : withoutRawMark s!"times{dimension}_{first}" = s!"times{dimension}_{first}" := by
    apply withoutRawMark_of_not_mem
    simp only [toString_text, String.toList_append, List.mem_append, digits_markFree, or_false]
    decide
  exact congrArg some plain

theorem name_split (dimension first : Nat) :
    (split dimension first).routine?.map Routine.name = some s!"split{dimension}_{first}" := by
  have plain : withoutRawMark s!"split{dimension}_{first}" = s!"split{dimension}_{first}" := by
    apply withoutRawMark_of_not_mem
    simp only [toString_text, String.toList_append, List.mem_append, digits_markFree, or_false]
    decide
  exact congrArg some plain

/-- Two functions for each split point. -/
theorem names_file (h : Arithmetic.file dimension place = .ok file) :
    file.routines.map Routine.name = (List.range' 1 (dimension - 1)).flatMap fun first =>
      [s!"times{dimension}_{first}", s!"split{dimension}_{first}"] := by
  obtain ⟨imports, items, -, rooted⟩ := items_file h
  have outside : (if dimension ≥ 4 then [Node.importing ["std", "ops", "Mul"]] else []).filterMap
      (fun item => item.routine?.map Routine.name) = [] := by
    split <;> rfl
  have inside : imports.filterMap (fun item => item.routine?.map Routine.name) = [] := by
    rw [List.filterMap_eq_nil_iff]
    intro item member
    obtain ⟨path, -, rfl⟩ := rooted item member
    rfl
  have points (first : Nat) : (splitPoint dimension first).filterMap
      (fun item => item.routine?.map Routine.name) =
      [s!"times{dimension}_{first}", s!"split{dimension}_{first}"] := by
    rw [splitPoint, multiplication_eq, List.filterMap_append]
    simp only [List.filterMap_cons, name_times, name_split]
    split <;> rfl
  rw [File.routines, List.map_filterMap, items, List.filterMap_append, List.filterMap_append,
    outside, inside, List.filterMap_flatMap]
  simp only [points, List.nil_append]

theorem nodup_names (dimension : Nat) :
    ((List.range' 1 (dimension - 1)).flatMap fun first =>
      [s!"times{dimension}_{first}", s!"split{dimension}_{first}"]).Nodup := by
  have apart (first other : Nat) : s!"times{dimension}_{first}" ≠ s!"split{dimension}_{other}" := by
    intro same
    have texts := congrArg (fun text : String => text.toList.head?) same
    simp at texts
  have timesInjective : Function.Injective fun first : Nat => s!"times{dimension}_{first}" :=
    numbered_injective _
  have splitInjective : Function.Injective fun first : Nat => s!"split{dimension}_{first}" :=
    numbered_injective _
  refine List.nodup_flatMap.2 ⟨fun first _ => ?_, ?_⟩
  · exact List.nodup_cons.2 ⟨by simp, List.nodup_singleton _⟩
  · have numbers : (List.range' 1 (dimension - 1)).Nodup := List.nodup_range'
    refine numbers.imp fun {first other} different => ?_
    intro name member inside
    rw [List.mem_pair] at member inside
    obtain rfl | rfl := member <;> obtain same | same := inside
    · exact different (timesInjective same)
    · exact apart _ _ same
    · exact apart _ _ same.symm
    · exact different (splitInjective same)

theorem atHand_of_file (h : Arithmetic.file dimension place = .ok file)
    (files : world.files = [file]) : AtHand world dimension := by
  have once : ((world.files.flatMap File.routines).map Routine.name).Nodup := by
    rw [files, List.flatMap_singleton, names_file h]
    exact nodup_names dimension
  have here : file ∈ world.files := by simp [files]
  constructor
  · intro first positive below
    exact World.function?_of_item once here
      (splitPoint_subset h positive below (mem_splitPoint.2 (.inl rfl))) (name_times dimension first)
  · intro first positive below
    exact World.function?_of_item once here
      (splitPoint_subset h positive below (mem_splitPoint.2 (.inr (.inl rfl))))
      (name_split dimension first)

/-- The multiplications are those of the split points with two wide sides. -/
theorem multiplications_file (h : Arithmetic.file dimension place = .ok file) :
    file.items.filterMap multiplication? =
      ((List.range' 1 (dimension - 1)).filter fun first =>
        first ≥ 2 ∧ dimension - first ≥ 2).map fun first =>
          (sideType (first + 1) dimension, sideType 1 first) := by
  obtain ⟨imports, items, -, rooted⟩ := items_file h
  have outside : (if dimension ≥ 4 then [Node.importing ["std", "ops", "Mul"]] else []).filterMap
      multiplication? = [] := by
    split <;> rfl
  have inside : imports.filterMap multiplication? = [] := by
    rw [List.filterMap_eq_nil_iff]
    intro item member
    obtain ⟨path, -, rfl⟩ := rooted item member
    rfl
  have points (first : Nat) : (splitPoint dimension first).filterMap multiplication? =
      if first ≥ 2 ∧ dimension - first ≥ 2 then
        [(sideType (first + 1) dimension, sideType 1 first)]
      else [] := by
    rw [splitPoint, multiplication_eq]
    split <;> rfl
  rw [items, List.filterMap_append, List.filterMap_append, outside, inside,
    List.filterMap_flatMap]
  simp only [points, List.nil_append]
  induction List.range' 1 (dimension - 1) with
  | nil => rfl
  | cons first rest ih =>
    by_cases wide : first ≥ 2 ∧ dimension - first ≥ 2
    · rw [List.flatMap_cons, if_pos wide, ih, List.filter_cons_of_pos (by simpa using wide)]
      rfl
    · rw [List.flatMap_cons, if_neg wide, ih, List.filter_cons_of_neg (by simpa using wide)]
      rfl

/-- Whether multiplication is imported says whether it is implemented. -/
theorem importsMul_iff (h : Arithmetic.file dimension place = .ok file) :
    .importing ["std", "ops", "Mul"] ∈ file.items ↔
      ∃ item ∈ file.items, (multiplication? item).isSome := by
  have four_le_iff : .importing ["std", "ops", "Mul"] ∈ file.items ↔ dimension ≥ 4 := by
    constructor
    · intro member
      obtain ⟨path, same, root | ⟨-, four_le⟩⟩ | ⟨first, -, -, inside⟩ := mem_items h member
      · obtain ⟨rest, rfl⟩ := List.head?_eq_some_iff.1 root
        cases rest <;> simp [Node.importing, Node.importSteps] at same
      · exact four_le
      · obtain same | same | ⟨-, same⟩ := mem_splitPoint.1 inside <;> cases same
    · intro four_le
      obtain ⟨imports, items, -, -⟩ := items_file h
      rw [items, if_pos four_le]
      simp
  rw [four_le_iff]
  constructor
  · intro four_le
    refine ⟨mulItem dimension 2, splitPoint_subset h (by omega) (by omega)
      (mem_splitPoint.2 (.inr (.inr ⟨by omega, rfl⟩))), rfl⟩
  · rintro ⟨item, member, isMul⟩
    obtain ⟨operands, operandsAre⟩ := Option.isSome_iff_exists.1 isMul
    have listed := List.mem_filterMap.2 ⟨item, member, operandsAre⟩
    rw [multiplications_file h, List.mem_map] at listed
    obtain ⟨first, among, -⟩ := listed
    have wide := (List.mem_filter.1 among).2
    rw [decide_eq_true_iff] at wide
    omega

/-- The sides of a split point are multiplied if and only if both are two slots wide at least. -/
theorem multiplied_iff (h : Arithmetic.file dimension place = .ok file) (positive : 1 ≤ first)
    (below : first < dimension) :
    (∃ item ∈ file.items,
        multiplication? item = some (sideType (first + 1) dimension, sideType 1 first)) ↔
      2 ≤ first ∧ 2 ≤ dimension - first := by
  rw [← List.mem_filterMap, multiplications_file h, List.mem_map]
  constructor
  · rintro ⟨other, among, same⟩
    -- the low side is as wide as the number of the split point
    have widths := congrArg (fun operands => width operands.2) same
    simp only [width_sideType, Nat.add_sub_cancel] at widths
    subst widths
    simpa using (List.mem_filter.1 among).2
  · rintro wide
    exact ⟨first, List.mem_filter.2 ⟨List.mem_range'_1.2 ⟨positive, by omega⟩, by simpa using wide⟩,
      rfl⟩

/-- The operands of a multiplication are as wide as those of no other. -/
theorem nodup_widths (h : Arithmetic.file dimension place = .ok file) :
    ((file.items.filterMap multiplication?).map fun operands =>
      (width operands.1, width operands.2)).Nodup := by
  rw [multiplications_file h, List.map_map]
  have points : (List.range' 1 (dimension - 1)).Nodup := List.nodup_range'
  refine (points.filter _).map fun first other same => ?_
  have low := congrArg Prod.snd same
  simpa only [Function.comp_apply, width_sideType, Nat.add_sub_cancel] using low

/-- Every product that an item names is imported. -/
theorem products_file (h : Arithmetic.file dimension place = .ok file) {item : Node}
    (member : item ∈ file.items) {count : Nat} (named : productType count ∈ item.segmentNames) :
    2 ≤ count ∧ count ≤ dimension ∧ ∃ path,
      ItemPath.ofFileItem place (productModule count) (productType count) = .ok path ∧
        .importing path ∈ file.items := by
  obtain ⟨imports, items, present, -⟩ := items_file h
  obtain ⟨path, rfl, -⟩ | ⟨first, positive, below, inside⟩ := mem_items h member
  · rw [Node.segmentNames, Node.collect_importing _ (fun _ _ => rfl) (fun _ _ => rfl) rfl] at named
    cases named
  · obtain ⟨two_le, within⟩ := allCovered_splitPoint positive below inside _ named count rfl
    obtain ⟨path, pathOk, imported⟩ := present count two_le within
    refine ⟨two_le, within, path, pathOk, ?_⟩
    rw [items, List.mem_append, List.mem_append]
    exact .inl (.inr imported)

/-- The code of the split points is what the generator with checked subtractions writes. -/
theorem subtracts_file (h : Arithmetic.file dimension place = .ok file) :
    ∃ imports code, (List.range' 1 (dimension - 1)).mapM (splitPoint? dimension) = some code ∧
      file.items = imports ++ code.flatten ∧ ∀ item ∈ imports, ∃ path, item = .importing path := by
  obtain ⟨imports, items, -, rooted⟩ := items_file h
  refine ⟨(if dimension ≥ 4 then [.importing ["std", "ops", "Mul"]] else []) ++ imports,
    (List.range' 1 (dimension - 1)).map (splitPoint dimension), ?_, ?_, fun item member => ?_⟩
  · refine Outcome.mapM_eq_some_map fun first among => ?_
    rw [List.mem_range'_1] at among
    exact splitPoint?_eq among.1 (by omega)
  · rw [items, List.flatMap_def]
  · obtain outside | inside := List.mem_append.1 member
    · split at outside
      · exact ⟨_, List.mem_singleton.1 outside⟩
      · cases outside
    · obtain ⟨path, -, same⟩ := rooted item inside
      exact ⟨path, same⟩

end Items

/-! ## The arithmetic as a whole -/

/-- What the functions of a split point do to values: the low side fills the slots from 1 to
`first` and the high side the others in order, and each function undoes the other. -/
structure Inverse (world : World Data) (dimension first : Nat) : Prop where
  /-- Joining puts every slot of both sides into one slot of the product. -/
  joins : ∀ high low, world.invoke s!"times{dimension}_{first}"
      [sideOf (dimension - first) high, sideOf first low] =
    some (productOf dimension fun slot => if slot ≤ first then low slot else high (slot - first))
  /-- Splitting takes the slots apart again. -/
  splits : ∀ value, world.invoke s!"split{dimension}_{first}" [productOf dimension value] =
    some (productOf 2 fun side =>
      if side = 2 then sideOf (dimension - first) fun slot => value (first + slot)
      else sideOf first value)
  /-- Joining the sides of a product gives the product back. -/
  joinsSplit : ∀ value, ∃ high low,
    world.invoke s!"split{dimension}_{first}" [productOf dimension value] =
        some (productOf 2 fun side => if side = 2 then high else low) ∧
      world.invoke s!"times{dimension}_{first}" [high, low] = some (productOf dimension value)
  /-- Splitting joined sides gives the sides back. -/
  splitsJoined : ∀ high low, ∃ joined,
    world.invoke s!"times{dimension}_{first}"
        [sideOf (dimension - first) high, sideOf first low] = some joined ∧
      world.invoke s!"split{dimension}_{first}" [joined] =
        some (productOf 2 fun side =>
          if side = 2 then sideOf (dimension - first) high else sideOf first low)

/-- How the functions of a split point are typed: a side is a parameter if it is one slot wide and
a product otherwise, and the values of a type are those whose slots belong to the parameters with
the numbers of the slots. -/
structure Typed (Data : Type) (file : File) (dimension first : Nat) (high low whole : Node) :
    Prop where
  /-- The types of the function that joins. -/
  times : ∃ item ∈ file.items, item.routine?.map Routine.name = some s!"times{dimension}_{first}" ∧
    item.signature? = some ([high, low], whole)
  /-- The types of the function that splits. -/
  split : ∃ item ∈ file.items, item.routine?.map Routine.name = some s!"split{dimension}_{first}" ∧
    item.signature? = some ([whole], .applied (productType 2) [high, low])
  /-- The high side is bare if it is one slot wide. -/
  bareHigh : (∃ name, high = .named name) ↔ dimension - first = 1
  /-- The low side is bare if it is one slot wide. -/
  bareLow : (∃ name, low = .named name) ↔ first = 1
  /-- The high side holds the slots above `first`. -/
  inhabitsHigh : ∀ (belongs : String → Value Data → Prop) value, Inhabits belongs high value ↔
    ∃ slots, value = sideOf (dimension - first) slots ∧
      ∀ slot, 1 ≤ slot → slot ≤ dimension - first → belongs s!"F{first + slot}" (slots slot)
  /-- The low side holds the slots up to `first`. -/
  inhabitsLow : ∀ (belongs : String → Value Data → Prop) value, Inhabits belongs low value ↔
    ∃ slots, value = sideOf first slots ∧
      ∀ slot, 1 ≤ slot → slot ≤ first → belongs s!"F{slot}" (slots slot)
  /-- The product holds all slots. -/
  inhabitsWhole : ∀ (belongs : String → Value Data → Prop) value, Inhabits belongs whole value ↔
    ∃ slots, value = productOf dimension slots ∧
      ∀ slot, 1 ≤ slot → slot ≤ dimension → belongs s!"F{slot}" (slots slot)

/-- The arithmetic of a dimension in a file. -/
structure Sound (world : World Data) (place : Place) (file : File) (dimension : Nat) : Prop where
  /-- Joining and splitting undo each other at every split point. -/
  inverse : ∀ first, 1 ≤ first → first < dimension → Inverse world dimension first
  /-- The functions have the types of what they take and give, and the sides are multiplied if and
  only if both are two slots wide at least. -/
  typed : ∀ first, 1 ≤ first → first < dimension → ∃ high low whole,
    Typed Data file dimension first high low whole ∧
      ((∃ item ∈ file.items, multiplication? item = some (high, low)) ↔
        2 ≤ first ∧ 2 ≤ dimension - first)
  /-- Every product that is named has two slots at least, no more than the dimension, and is
  imported. -/
  products : ∀ item ∈ file.items, ∀ name ∈ item.segmentNames, ∀ count, name = productType count →
    2 ≤ count ∧ count ≤ dimension ∧ ∃ path,
      ItemPath.ofFileItem place (productModule count) (productType count) = .ok path ∧
        .importing path ∈ file.items
  /-- No two multiplications have operands of the same widths. -/
  apart : ((file.items.filterMap multiplication?).map fun operands =>
    (width operands.1, width operands.2)).Nodup
  /-- Multiplication is imported if and only if it is implemented. -/
  imported : .importing ["std", "ops", "Mul"] ∈ file.items ↔
    ∃ item ∈ file.items, (multiplication? item).isSome
  /-- No subtraction goes below zero when the code is written. -/
  subtracts : ∃ imports code,
    (List.range' 1 (dimension - 1)).mapM (splitPoint? dimension) = some code ∧
      file.items = imports ++ code.flatten ∧ ∀ item ∈ imports, ∃ path, item = .importing path

theorem inverse_of_atHand (hand : AtHand world dimension) (positive : 1 ≤ first)
    (below : first < dimension) : Inverse world dimension first := by
  have joins := invoke_times hand positive below
  have splits := invoke_split hand positive below
  refine ⟨joins, splits, fun value => ?_, fun high low => ?_⟩
  · refine ⟨_, _, splits value, (joins _ _).trans (congrArg some ?_)⟩
    refine productOf_congr fun slot above within => ?_
    split
    · rfl
    · congr 1
      omega
  · refine ⟨_, joins high low, (splits _).trans (congrArg some ?_)⟩
    refine productOf_congr fun side _ _ => ?_
    split
    · refine sideOf_congr (by omega) fun slot above _ => ?_
      rw [if_neg (by omega)]
      congr 1
      omega
    · refine sideOf_congr positive fun slot _ within => ?_
      rw [if_pos within]

theorem typed_of_file {place : Place} {file : File}
    (h : Arithmetic.file dimension place = .ok file) (positive : 1 ≤ first)
    (below : first < dimension) :
    Typed Data file dimension first (sideType (first + 1) dimension) (sideType 1 first)
      (Product.type dimension (slotNames "F" dimension 1)) := by
  have inFile {item : Node} (member : item ∈ splitPoint dimension first) : item ∈ file.items :=
    splitPoint_subset h positive below member
  constructor
  · exact ⟨_, inFile (mem_splitPoint.2 (.inl rfl)), name_times dimension first,
      signature?_times dimension first⟩
  · exact ⟨_, inFile (mem_splitPoint.2 (.inr (.inl rfl))), name_split dimension first,
      signature?_split dimension first⟩
  · rw [sideType_eq_named_iff]
    omega
  · rw [sideType_eq_named_iff]
    omega
  · intro belongs value
    have width : dimension + 1 - (first + 1) = dimension - first := by omega
    have slot (i : Nat) : first + 1 + i - 1 = first + i := by omega
    rw [inhabits_sideType (by omega), width]
    simp only [slot]
  · intro belongs value
    have slot (i : Nat) : 1 + i - 1 = i := by omega
    rw [inhabits_sideType positive, Nat.add_sub_cancel]
    simp only [slot]
  · exact fun belongs value => inhabits_type

/-- The code of the arithmetic of a dimension joins and splits products without loss, with the
right types and imports, and is written without underflow. -/
theorem sound_of_file {place : Place} {file : File}
    (h : Arithmetic.file dimension place = .ok file) (files : world.files = [file]) :
    Sound world place file dimension where
  inverse := fun _ => inverse_of_atHand (atHand_of_file h files)
  typed := fun _ positive below =>
    ⟨_, _, _, typed_of_file h positive below, multiplied_iff h positive below⟩
  products := by
    rintro item member _ named count rfl
    exact products_file h member named
  apart := nodup_widths h
  imported := importsMul_iff h
  subtracts := subtracts_file h

/-- The file of the arithmetic of four slots. -/
def fourSlots : { file : File // Arithmetic.file 4 ⟨"src", "", "products"⟩ = .ok file } :=
  Outcome.value (by decide +kernel)

/-- The arithmetic of four slots, the first with a multiplication. -/
theorem sound_four : ∃ file, Arithmetic.file 4 ⟨"src", "", "products"⟩ = .ok file ∧
    Sound (⟨[file], fun _ _ => none, fun _ => none⟩ : World Nat) ⟨"src", "", "products"⟩ file 4 := by
  obtain ⟨file, fileOk⟩ := fourSlots
  exact ⟨file, fileOk, sound_of_file fileOk rfl⟩

end Arithmetic

end Slotwise.Family
