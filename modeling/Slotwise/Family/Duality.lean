import Slotwise.Family.Product
import Slotwise.Family.Sum
/-!
# Duality

A function out of a sum and a product of one function per case carry the same information. The code
converts between the two, and measures a sum with a product of functions.
-/

namespace Slotwise.Family.Duality

open Code Code.Node Naming

/-- The product of functions of the trait `name` from the slots to `output`. -/
def functionProduct (name : String) (dimension : Nat) (slots : List String) (output : String) :
    Node :=
  applied (productType dimension)
    (slots.map fun slot => someFunction name (named slot) (named output))

/-- The function from a product of functions to a function out of the sum. -/
def opposeProduct (dimension : Nat) : Node :=
  let slots := slotNames "F" dimension 1
  attributed
    [docLine (s!" Turns a product of case functions into one function out of " ++
      s!"[`{sumType dimension}`].")]
    (publicFunction s!"oppose_product{dimension}" (some (parameters (slots ++ ["T"])))
      [input "product" (functionProduct "Fn" dimension slots "T")] true
      (some (someFunction "Fn" (Sum.type dimension slots) (named "T")))
      [letStatement
          (fields (named (productType dimension)) ((Product.factors dimension).map binding) false)
          (some (named "product")) none,
        call (named s!"sum{dimension}") ((Product.factors dimension).map named) false])

/-- The function from a function out of the sum to a product of functions. -/
def opposeSum (dimension : Nat) : Node :=
  let slots := slotNames "F" dimension 1
  let copies := ((slotsDown dimension).filter (· ≠ 1)).map fun slot =>
    letIs s!"f{slot}" (call (namedAlong ["Rc", "clone"]) [shared (named "f")] false)
  let injected (slot : Nat) : Node :=
    call
      (call
        (path false [segment (injection dimension slot)
          (some (angled true (slots.map named) false))]) [] false)
      [named "value"] false
  attributed
    [docLine (s!" Splits a function out of [`{sumType dimension}`] into one case function per " ++
      s!"variant. Inverse of `oppose_product{dimension}`.")]
    (publicFunction s!"oppose_sum{dimension}" (some (parameters (slots ++ ["T"])))
      [input "f" (someFunction "Fn" (Sum.type dimension slots) (named "T"))] true
      (some (functionProduct "Fn" dimension slots "T"))
      ([letIs "f" (call (namedAlong ["Rc", "new"]) [named "f"] false)] ++ copies ++
        [letIs "f1" (named "f"),
          Product.value dimension fun slot =>
            closure none ["move"] [input "value" (named s!"F{slot}")] false none
              (call (paren (unary "*" (named s!"f{slot}"))) [injected slot] false)]))

/-- The function that measures a sum by the function for its case. -/
def measure (dimension : Nat) : Node :=
  let slots := slotNames "T" dimension 1
  attributed
    [docLine (s!" Measures a [`{sumType dimension}`] with the factor of `measure` matching its " ++
      "active variant.")]
    (publicFunction s!"measure{dimension}" (some (parameters (slots ++ ["M"])))
      [input "sum" (Sum.type dimension slots),
        input "measure" (functionProduct "FnOnce" dimension slots "M")] true
      (some (named "M"))
      [Sum.byCase "sum" (sumType dimension) dimension "value" fun slot =>
        call (paren (member (named "measure") (factor slot))) [named "value"] false])

/-- The function that measures a sum of equal types by one function. -/
def measureUniform (dimension : Nat) : Node :=
  let patterns := (slotsDown dimension).map fun slot =>
    Sum.inCase (sumType dimension) slot (binding "value")
  attributed
    [docLine s!" Measures a [`{sumType dimension}`] whose variants all carry the same type."]
    (publicFunction s!"measure{dimension}_uniform" (some (parameters ["T", "M"]))
      [input "sum" (Sum.type dimension (List.replicate dimension "T")),
        input "measure" (someFunction "FnOnce" (named "T") (named "M"))] false
      (some (named "M"))
      [choice (named "sum")
        [arm (alternatives false patterns) none
          (call (named "measure") [named "value"] false) true]])

/-- The file of the duality of a dimension, with the products and sums at these places. -/
def file (dimension : Nat) (products sums : Place) : Except Failure File := do
  let productPath ← ItemPath.ofFileItem products (productModule dimension) (productType dimension)
  let sumItem (item : String) := ItemPath.ofFileItem sums (sumModule dimension) item
  let sumPath ← sumItem (sumType dimension)
  let casePath ← sumItem s!"sum{dimension}"
  let injectionPaths ← (slotsDown dimension).mapM fun slot => sumItem (injection dimension slot)
  return ⟨[fileDoc (s!" Duality between functions out of [`{sumType dimension}`] and products " ++
      "of functions.")],
    [importing ["std", "rc", "Rc"], importing productPath, importing sumPath,
      importing casePath] ++ injectionPaths.map importing ++
    [opposeProduct dimension, opposeSum dimension, measure dimension, measureUniform dimension]⟩

end Slotwise.Family.Duality
