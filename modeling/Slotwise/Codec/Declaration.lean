import Slotwise.Codec.Reference
import Slotwise.Declaration
/-!
# Written declarations

The written forms of locations, output options, records, variants, variant sets and key groups.
-/

namespace Slotwise.Codec

/-! ## Locations -/

/-- A location; fields may be missing. -/
def location? (dialect : Dialect) (document : Document) : Option Location := do
  let look ← look? dialect true ["source_root", "domain", "package"] document
  let sourceRoot ← optional look "source_root" text?
  let domain ← optional look "domain" text?
  let package ← optional look "package" text?
  return ⟨sourceRoot, domain, package⟩

/-- The written form of a location. -/
def writeLocation (location : Location) : Document :=
  .table
    [("source_root", optionalText location.sourceRoot), ("domain", optionalText location.domain),
      ("package", optionalText location.package)]

/-- A place; entries for no field are passed over. -/
def place? (dialect : Dialect) (document : Document) : Option Place := do
  let look ← look? dialect false ["source_root", "domain", "package"] document
  let sourceRoot ← required look "source_root" text?
  let domain ← required look "domain" text?
  let package ← required look "package" text?
  return ⟨sourceRoot, domain, package⟩

/-- The written form of a place. -/
def writePlace (place : Place) : Document :=
  .table
    [("source_root", .text place.sourceRoot), ("domain", .text place.domain),
      ("package", .text place.package)]

/-- Output options; what is missing has its default. -/
def options? (dialect : Dialect) (document : Document) : Option OutputOptions := do
  let look ← look? dialect true ["source_root", "domain", "module_index", "root_index"] document
  let fallback := OutputOptions.default
  let sourceRoot ← orElse look "source_root" fallback.sourceRoot text?
  let domain ← orElse look "domain" fallback.domain text?
  let moduleIndex ← orElse look "module_index" fallback.moduleIndex flag?
  let rootIndex ← orElse look "root_index" fallback.rootIndex flag?
  return ⟨sourceRoot, domain, moduleIndex, rootIndex⟩

/-- The written form of output options. -/
def writeOptions (options : OutputOptions) : Document :=
  .table
    [("source_root", .text options.sourceRoot), ("domain", .text options.domain),
      ("module_index", .flag options.moduleIndex), ("root_index", .flag options.rootIndex)]

/-! ## Declarations -/

/-- A record. -/
def record? (dialect : Dialect) (document : Document) : Option Record := do
  let look ← look? dialect true
    ["name", "location", "fields", "setters_suffix", "serializable", "doc"] document
  let name ← required look "name" text?
  let location ← orElse look "location" Location.anywhere (location? dialect)
  let fields ← required look "fields" (listOf? (field? dialect))
  let settersSuffix ← optional look "setters_suffix" text?
  let serializable ← orElse look "serializable" false flag?
  let doc ← orElse look "doc" [] (listOf? text?)
  return ⟨name, location, fields, settersSuffix, serializable, doc⟩

/-- The written form of a record. -/
def writeRecord (record : Record) : Document :=
  .table
    [("name", .text record.name), ("location", writeLocation record.location),
      ("fields", .list (record.fields.map writeField)),
      ("setters_suffix", optionalText record.settersSuffix),
      ("serializable", .flag record.serializable), ("doc", texts record.doc)]

/-- The pairs sorted by key; of two values for one key the later one counts. -/
def sortedPairs (pairs : List (String × String)) : List (String × String) :=
  pairs.foldl (fun sorted (key, value) => insertValue key value sorted) []

/-- A variant. -/
def variant? (dialect : Dialect) (document : Document) : Option Variant := do
  let look ← look? dialect true
    ["name", "fields", "overrides", "default_values", "doc"] document
  let name ← required look "name" text?
  let fields ← orElse look "fields" [] (listOf? (field? dialect))
  let overrides ← orElse look "overrides" [] (listOf? text?)
  let baseValues ← orElse look "default_values" [] textTable?
  let doc ← orElse look "doc" [] (listOf? text?)
  return ⟨name, fields, Ordered.sortedTexts overrides, sortedPairs baseValues, doc⟩

/-- The written form of a variant. -/
def writeVariant (variant : Variant) : Document :=
  .table
    [("name", .text variant.name), ("fields", .list (variant.fields.map writeField)),
      ("overrides", texts variant.overrides),
      ("default_values", .table (variant.baseValues.map fun (key, value) => (key, .text value))),
      ("doc", texts variant.doc)]

/-- A variant set. -/
def variantSet? (dialect : Dialect) (document : Document) : Option VariantSet := do
  let look ← look? dialect true
    ["name", "location", "fields", "variants", "setters_suffix", "serializable", "serialization",
      "doc"] document
  let name ← required look "name" text?
  let location ← orElse look "location" Location.anywhere (location? dialect)
  let fields ← orElse look "fields" [] (listOf? (field? dialect))
  let variants ← required look "variants" (listOf? (variant? dialect))
  let settersSuffix ← optional look "setters_suffix" text?
  let serializable ← orElse look "serializable" false flag?
  let serialization ← orElse look "serialization" .plain serialization?
  let doc ← orElse look "doc" [] (listOf? text?)
  return ⟨name, location, fields, variants, settersSuffix, serializable, serialization, doc⟩

/-- The written form of a variant set. -/
def writeVariantSet (set : VariantSet) : Document :=
  .table
    [("name", .text set.name), ("location", writeLocation set.location),
      ("fields", .list (set.fields.map writeField)),
      ("variants", .list (set.variants.map writeVariant)),
      ("setters_suffix", optionalText set.settersSuffix),
      ("serializable", .flag set.serializable),
      ("serialization", writeSerialization set.serialization), ("doc", texts set.doc)]

/-- A group of keys. -/
def keyGroup? (dialect : Dialect) (document : Document) : Option KeyGroup := do
  let look ← look? dialect true ["prefix", "count", "serializable", "location"] document
  let stem ← required look "prefix" text?
  let count ← required look "count" number?
  let serializable ← orElse look "serializable" false flag?
  let location ← orElse look "location" Location.anywhere (location? dialect)
  return ⟨stem, count, serializable, location⟩

/-- The written form of a group of keys. -/
def writeKeyGroup (group : KeyGroup) : Document :=
  .table
    [("prefix", .text group.stem), ("count", .natural group.count),
      ("serializable", .flag group.serializable), ("location", writeLocation group.location)]

/-! ## Reading back -/

@[simp] theorem location?_writeLocation (dialect : Dialect) (location : Location) :
    location? dialect (writeLocation location) = some location := by
  rcases location with ⟨_ | _, _ | _, _ | _⟩ <;> rfl

end Slotwise.Codec
