import Slotwise.Codec.Declaration
import Slotwise.Request
/-!
# Written selections and requests

The written forms of selections and of whole requests. Selections nest, so reading is bounded by the
depth of the document.
-/

namespace Slotwise.Codec

/-! ## Selections -/

/-- The fields of a part of a selection, which is a table unless the dialect allows a list. -/
def lookPart? (dialect : Dialect) (names : List String) : Document → Option Look
  | .list items =>
    if dialect.listedParts then look? dialect true names (.list items) else none
  | document => look? dialect (!dialect.openParts) names document

/-- The location of a part of a selection. -/
def partLocation? (dialect : Dialect) (look : Look) : Option Location :=
  orElse look "location" Location.anywhere (location? dialect)

/-- A selection whose composites nest below `bound`. -/
def selectionBelow? (dialect : Dialect) : Nat → Document → Option Selection
  | 0, _ => none
  | _ + 1, .table [("single", part)] => do
    let look ← lookPart? dialect ["dimension", "location"] part
    let dimension ← required look "dimension" number?
    return .single dimension (← partLocation? dialect look)
  | _ + 1, .table [("range", part)] => do
    let look ← lookPart? dialect ["from", "to", "location"] part
    let first ← required look "from" number?
    let last ← required look "to" number?
    return .range first last (← partLocation? dialect look)
  | _ + 1, .table [("list", part)] => do
    let look ← lookPart? dialect ["dimensions", "location"] part
    let dimensions ← required look "dimensions" (listOf? number?)
    return .list dimensions (← partLocation? dialect look)
  | bound + 1, .table [("composite", part)] => do
    let look ← lookPart? dialect ["selections", "location"] part
    let members ← required look "selections" (listOf? (selectionBelow? dialect bound))
    return .composite members (← partLocation? dialect look)
  | _, _ => none

/-- A selection. -/
def selection? (dialect : Dialect) (document : Document) : Option Selection :=
  selectionBelow? dialect document.depth document

mutual

/-- The written form of a selection. -/
def writeSelection : Selection → Document
  | .single dimension location =>
    .table [("single", .table
      [("dimension", .natural dimension), ("location", writeLocation location)])]
  | .range first last location =>
    .table [("range", .table
      [("from", .natural first), ("to", .natural last), ("location", writeLocation location)])]
  | .list dimensions location =>
    .table [("list", .table
      [("dimensions", .list (dimensions.map .natural)), ("location", writeLocation location)])]
  | .composite members location =>
    .table [("composite", .table
      [("selections", .list (writeSelections members)), ("location", writeLocation location)])]

/-- The written forms of several selections. -/
def writeSelections : List Selection → List Document
  | [] => []
  | member :: rest => writeSelection member :: writeSelections rest

end

/-! ## Requests -/

/-- The fields of a written request. -/
def requestNames : List String :=
  ["output", "module", "products", "sums", "dualities", "product_arithmetics", "evoleq_products",
    "evoleq_sums", "keys", "data_classes", "sealed_classes"]

/-- A request; everything may be missing. -/
def request? (dialect : Dialect) (document : Document) : Option Request := do
  let look ← look? dialect true requestNames document
  let output ← orElse look "output" OutputOptions.default (options? dialect)
  let module ← orElse look "module" Location.anywhere (location? dialect)
  let products ← optional look "products" (selection? dialect)
  let sums ← optional look "sums" (selection? dialect)
  let dualities ← optional look "dualities" (selection? dialect)
  let arithmetics ← optional look "product_arithmetics" (selection? dialect)
  let evolvingProducts ← optional look "evoleq_products" (selection? dialect)
  let evolvingSums ← optional look "evoleq_sums" (selection? dialect)
  let keys ← orElse look "keys" [] (listOf? (keyGroup? dialect))
  let records ← orElse look "data_classes" [] (listOf? (record? dialect))
  let variantSets ← orElse look "sealed_classes" [] (listOf? (variantSet? dialect))
  return ⟨output, module, products, sums, dualities, arithmetics, evolvingProducts, evolvingSums,
    keys, records, variantSets⟩

/-- The written form of a selection that may be absent. -/
def optionalSelection : Option Selection → Document
  | none => .null
  | some selection => writeSelection selection

/-- The written form of a request. -/
def writeRequest (request : Request) : Document :=
  .table
    [("output", writeOptions request.output), ("module", writeLocation request.module),
      ("products", optionalSelection request.products), ("sums", optionalSelection request.sums),
      ("dualities", optionalSelection request.dualities),
      ("product_arithmetics", optionalSelection request.arithmetics),
      ("evoleq_products", optionalSelection request.evolvingProducts),
      ("evoleq_sums", optionalSelection request.evolvingSums),
      ("keys", .list (request.keys.map writeKeyGroup)),
      ("data_classes", .list (request.records.map writeRecord)),
      ("sealed_classes", .list (request.variantSets.map writeVariantSet))]

end Slotwise.Codec
