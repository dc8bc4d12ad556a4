import Slotwise.Family.Product
import Slotwise.Family.Sum
/-!
# Evolution

An evolver turns a slot into a future of the same type. The code applies a product of evolvers to a
product or a sum, and awaits the futures.
-/

namespace Slotwise.Family.Evolution

open Code Code.Node Naming

/-- Every future slot yields the value slot of its number. -/
def evolvedClause (dimension : Nat) : Node :=
  whereClause
    ((slotsDown dimension).map fun slot =>
      predicate none (named s!"V{slot}") [boundWith "Future" "Output" (named s!"T{slot}")])
    false

/-- Every future slot is a future. -/
def futureClause (dimension : Nat) : Node :=
  whereClause
    ((slotsDown dimension).map fun slot =>
      predicate none (named s!"V{slot}") [traitBound (named "Future")]) false

/-- The product of evolvers. -/
def evolvers (dimension : Nat) : Node :=
  applied (productType dimension)
    ((slotsDown dimension).map fun slot =>
      someFunction "FnOnce" (named s!"T{slot}") (named s!"V{slot}"))

/-- What the evolver of a slot makes of a value. -/
def evolved (slot : Nat) (value : Node) : Node :=
  call (paren (member (named "evolvers") (factor slot))) [value] false

/-- The types that the futures of the slots yield. -/
def outputs (dimension : Nat) : List Node :=
  (slotNames "V" dimension 1).map fun slot => namedAlong [slot, "Output"]

/-- The function that applies the evolvers to `subject` of the type `owner`. -/
def evolve (name subject owner : String) (dimension : Nat) (body : Node) : Node :=
  let values := slotNames "T" dimension 1
  let futures := slotNames "V" dimension 1
  isPublic (function [] name (some (parameters (values ++ futures)))
    [input "evolvers" (evolvers dimension), input subject (appliedTo owner values)] true
    (some (appliedTo owner futures)) (some (evolvedClause dimension)) (some (block [] [body])))

/-- The function that awaits the futures of `subject` of the type `owner`. -/
def await (name subject owner : String) (dimension : Nat) (body : List Node) : Node :=
  let futures := slotNames "V" dimension 1
  isPublic (function [.word "async"] name (some (parameters futures))
    [input subject (appliedTo owner futures)] true (some (applied owner (outputs dimension)))
    (some (futureClause dimension)) (some (block [] body)))

/-- The file of the evolution of products of a dimension, which are at `products`. -/
def productFile (dimension : Nat) (products : Place) : Except Failure File := do
  let product := productType dimension
  let productPath ← ItemPath.ofFileItem products (productModule dimension) product
  return ⟨[fileDoc s!" Asynchronous evolution of [`{product}`] values."],
    [importing ["std", "future", "Future"], importing productPath,
      attributed
        [docLine s!" Applies every evolver to its factor, yielding a [`{product}`] of futures."]
        (evolve s!"evolve_product{dimension}" "product" product dimension
          (Product.value dimension fun slot =>
            evolved slot (member (named "product") (factor slot)))),
      attributed [docLine " Awaits every factor, highest to lowest."]
        (await s!"get_product{dimension}" "product" product dimension
          ((slotsDown dimension).map (fun slot =>
              letIs (factor slot) (.await (member (named "product") (factor slot)))) ++
            [Product.valueOfFactors dimension]))]⟩

/-- The file of the evolution of sums of a dimension, with products and sums at these places. -/
def sumFile (dimension : Nat) (products sums : Place) : Except Failure File := do
  let sum := sumType dimension
  let productPath ← ItemPath.ofFileItem products (productModule dimension) (productType dimension)
  let sumPath ← ItemPath.ofFileItem sums (sumModule dimension) sum
  return ⟨[fileDoc s!" Asynchronous evolution of [`{sum}`] values."],
    [importing ["std", "future", "Future"], importing productPath, importing sumPath,
      attributed [docLine s!" Applies the evolver of the active variant of a [`{sum}`]."]
        (evolve s!"evolve_sum{dimension}" "sum" sum dimension
          (Sum.byCase "sum" sum dimension "value" fun slot =>
            Sum.inCase sum slot (evolved slot (named "value")))),
      attributed [docLine " Awaits the payload of the active variant."]
        (await s!"get_sum{dimension}" "sum" sum dimension
          [Sum.byCase "sum" sum dimension "future" fun slot =>
            Sum.inCase sum slot (.await (named "future"))])]⟩

end Slotwise.Family.Evolution
