import Slotwise.Declaration
import Slotwise.Selection
/-!
# Requests

Everything that one run generates, as one value.
-/

namespace Slotwise

/-- What one run is asked to generate. -/
structure Request where
  /-- Defaults of the output. -/
  output : OutputOptions
  /-- Location fields forced onto every selection. -/
  module : Location
  /-- Product families. -/
  products : Option Selection
  /-- Sum families. -/
  sums : Option Selection
  /-- Duality transforms, with the products and sums of the same dimensions. -/
  dualities : Option Selection
  /-- Arithmetic of products, with every product up to the dimension. -/
  arithmetics : Option Selection
  /-- Evolution of products. -/
  evolvingProducts : Option Selection
  /-- Evolution of sums. -/
  evolvingSums : Option Selection
  /-- Groups of keys. -/
  keys : List KeyGroup
  /-- Records that receive lenses. -/
  records : List Record
  /-- Variant sets that receive prisms. -/
  variantSets : List VariantSet
deriving Repr

namespace Request

/-- The request for nothing. -/
def empty : Request :=
  ⟨OutputOptions.default, Location.anywhere, none, none, none, none, none, none, [], [], []⟩

/-- Whether nothing at all is asked for. -/
def isEmpty (request : Request) : Bool :=
  request.products.isNone && request.sums.isNone && request.dualities.isNone &&
    request.arithmetics.isNone && request.evolvingProducts.isNone &&
    request.evolvingSums.isNone && request.keys.isEmpty && request.records.isEmpty &&
    request.variantSets.isEmpty

/-- The selections of the request in order, those that are present. -/
def selections (request : Request) : List Selection :=
  [request.products, request.sums, request.dualities, request.arithmetics,
    request.evolvingProducts, request.evolvingSums].filterMap id

/-- Whether some declaration of the request serializes. -/
def serializes (request : Request) : Bool :=
  request.keys.any (·.serializable) || request.records.any (·.serializable) ||
    request.variantSets.any (·.serializable)

@[simp] theorem isEmpty_empty : empty.isEmpty = true := rfl

end Request

end Slotwise
