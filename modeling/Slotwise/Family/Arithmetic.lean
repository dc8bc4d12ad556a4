import Slotwise.Family.Product
/-!
# Arithmetic of products

The code that joins two products to one and splits it again, for every split point of a dimension.
A side that is one slot wide is a bare value.
-/

namespace Slotwise.Family.Arithmetic

open Code Code.Node Naming

/-- The type of the side with the slots from `first` to `last`. -/
def sideType (first last : Nat) : Node :=
  if first = last then named s!"F{first}"
  else Product.type (last + 1 - first) (slotNames "F" last first)

/-- Slot `slot` of a side that is `width` slots wide. -/
def sideSlot (side : String) (width slot : Nat) : Node :=
  if width = 1 then named side else member (named side) (factor slot)

/-- The side with the slots from `first` to `last` of a product. -/
def sideValue (first last : Nat) : Node :=
  if first = last then member (named "product") (factor first)
  else
    fields (named (productType (last + 1 - first)))
      ((slotsDown (last + 1 - first)).map fun slot =>
        fieldIs (factor slot) (member (named "product") (factor (first + slot - 1)))) false

/-- The function that joins the sides. -/
def times (dimension first : Nat) : Node :=
  let slots := slotNames "F" dimension 1
  let second := dimension - first
  attributed
    [docLine (s!" Multiplies {second} high factor(s) with {first} low factor(s) into a " ++
      s!"[`{productType dimension}`].")]
    (publicFunction s!"times{dimension}_{first}" (some (parameters slots))
      [input "high" (sideType (first + 1) dimension), input "low" (sideType 1 first)] false
      (some (Product.type dimension slots))
      [Product.value dimension fun slot =>
        if slot > first then sideSlot "high" second (slot - first)
        else sideSlot "low" first slot])

/-- The function that splits a product into its sides. -/
def split (dimension first : Nat) : Node :=
  let slots := slotNames "F" dimension 1
  attributed
    [docLine (s!" Splits a [`{productType dimension}`] into its {dimension - first} high and " ++
      s!"{first} low factor(s); inverse of [`times{dimension}_{first}`].")]
    (publicFunction s!"split{dimension}_{first}" (some (parameters slots))
      [input "product" (Product.type dimension slots)] false
      (some (applied (productType 2) [sideType (first + 1) dimension, sideType 1 first]))
      [Product.value 2 fun slot =>
        if slot = 2 then sideValue (first + 1) dimension else sideValue 1 first])

/-- The multiplication of two sides that both are products. -/
def multiplication (dimension first : Nat) : List Node :=
  let slots := slotNames "F" dimension 1
  let low := sideType 1 first
  if first ≥ 2 ∧ dimension - first ≥ 2 then
    [traitFor (some (parameters slots)) (applied "Mul" [low]) (sideType (first + 1) dimension)
      [Node.typeAlias "Output" none [] none (some (Product.type dimension slots)),
        function [] "mul" none [self, input "low" low] false
          (some (namedAlong ["Self", "Output"])) none
          (some (block [] [call (named s!"times{dimension}_{first}")
            [self, named "low"] false]))]]
  else []

/-- The code for one split point. -/
def splitPoint (dimension first : Nat) : List Node :=
  [times dimension first, split dimension first] ++ multiplication dimension first

/-- The file of the arithmetic of a dimension; the products are at `place`. -/
def file (dimension : Nat) (place : Place) : Except Failure File := do
  let imports ← (List.range' 2 (dimension - 1)).mapM fun width =>
    importing <$> ItemPath.ofFileItem place (productModule width) (productType width)
  return ⟨[fileDoc s!" Splitting and recombining products of {dimension} factors."],
    (if dimension ≥ 4 then [importing ["std", "ops", "Mul"]] else []) ++ imports ++
      (List.range' 1 (dimension - 1)).flatMap (splitPoint dimension)⟩

end Slotwise.Family.Arithmetic
