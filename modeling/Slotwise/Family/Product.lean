import Slotwise.Code.Build
import Slotwise.ItemPath
/-!
# Products

The code of the product types: for each dimension a struct with one component per slot, its
constructor, the product of functions, the projections and the maps of single slots.
-/

namespace Slotwise.Family.Product

open Code Code.Node Naming

/-- The file of the trait that marks products. -/
def marker : File :=
  ⟨[fileDoc " Marker capability shared by all product types."],
    [attributed [docLine " Implemented by every generated `ProductN`."]
      (isPublic (traitItem [] "Product" none [] none []))]⟩

/-- The names of the components from the highest slot down. -/
def factors (dimension : Nat) : List String :=
  slotNames "factor" dimension 1

/-- The product type with these types in its slots. -/
def type (dimension : Nat) (slots : List String) : Node :=
  appliedTo (productType dimension) slots

/-- A value of the product type with every component given. -/
def value (dimension : Nat) (component : Nat → Node) : Node :=
  fields (named (productType dimension))
    ((slotsDown dimension).map fun slot => fieldIs (factor slot) (component slot)) true

/-- A value of the product type from variables named like its components. -/
def valueOfFactors (dimension : Nat) : Node :=
  fields (named (productType dimension)) ((factors dimension).map named) false

/-- The struct itself. -/
def struct (dimension : Nat) : Node :=
  let slots := slotNames "F" dimension 1
  attributed
    [docLine (s!" A product of {dimension} independently typed factors, " ++
        s!"`factor{dimension}` down to `factor1`."),
      derivation ["Debug", "Clone", "Copy", "PartialEq", "Eq", "PartialOrd", "Ord", "Hash",
        "Default"]]
    (isPublic (fieldStruct "struct" (productType dimension) (some (parameters slots)) none
      ((slotsDown dimension).map fun slot => publicField (factor slot) (named s!"F{slot}")) true))

/-- The function that makes a product of its components. -/
def maker (dimension : Nat) : Node :=
  let slots := slotNames "F" dimension 1
  behind (docLine s!" Creates a [`{productType dimension}`] from its factors." ::
      allowingArguments dimension)
    (publicFunction s!"product{dimension}" (some (parameters slots))
      ((slotsDown dimension).map fun slot => input (factor slot) (named s!"F{slot}")) false
      (some (type dimension slots)) [valueOfFactors dimension])

/-- The function that applies one function to each component. -/
def mapAll (dimension : Nat) : Node :=
  let sources := slotNames "S" dimension 1
  let targets := slotNames "T" dimension 1
  behind (docLine " Applies one function per factor." :: allowingArguments dimension)
    (publicFunction s!"map_product{dimension}" (some (parameters (sources ++ targets)))
      ((slotsDown dimension).map fun slot =>
        input s!"f{slot}" (someFunction "Fn" (named s!"S{slot}") (named s!"T{slot}"))) false
      (some (someFunction "Fn" (type dimension sources) (type dimension targets)))
      [closure none ["move"] [input "product" (type dimension sources)] false none
        (value dimension fun slot =>
          call (named s!"f{slot}") [member (named "product") (factor slot)] false)])

/-- The function that takes one component out of a product. -/
def projectionItem (dimension slot : Nat) : Node :=
  let slots := slotNames "F" dimension 1
  attributed
    [docLine s!" Projection of a [`{productType dimension}`] onto `{factor slot}`."]
    (publicFunction (projection dimension slot) (some (parameters slots)) [] false
      (some (someFunction "Fn" (type dimension slots) (named s!"F{slot}")))
      [closure none [] [input "product" (type dimension slots)] false none
        (member (named "product") (factor slot))])

/-- The method that maps one component and keeps the others. -/
def mapItem (dimension slot : Nat) : Node :=
  attributed [docLine s!" Maps `factor{slot}`, keeping every other factor."]
    (publicFunction (mapSlot slot) (some (parameters [s!"G{slot}"]))
      [self, input "f" (someFunction "FnOnce" (named s!"F{slot}") (named s!"G{slot}"))] false
      (some (type dimension (slotNamesWith "F" dimension slot "G")))
      [value dimension fun i =>
        if i = slot then call (named "f") [member self (factor i)] false
        else member self (factor i)])

/-- The method that borrows every component. -/
def asRefs (dimension : Nat) : Node :=
  attributed [docLine " Borrows every factor."]
    (publicFunction "as_refs" none [shared self] false
      (some (applied (productType dimension)
        ((slotNames "F" dimension 1).map fun slot => shared (named slot))))
      [value dimension fun slot => shared (member self (factor slot))])

/-- The file of the product type of a dimension, generated at `place`. -/
def file (dimension : Nat) (place : Place) : Except Failure File := do
  let markerPath ← ItemPath.ofFileItem place productMarkerModule "Product"
  let slots := slotNames "F" dimension 1
  let generics := some (parameters slots)
  return ⟨[fileDoc s!" Product of {dimension} factors."],
    [importing markerPath, struct dimension,
      traitFor generics (named "Product") (type dimension slots) [],
      maker dimension, mapAll dimension] ++
    (slotsUp dimension).map (projectionItem dimension) ++
    [methodsOf generics (type dimension slots)
      ((slotsDown dimension).map (mapItem dimension) ++ [asRefs dimension])]⟩

end Slotwise.Family.Product
