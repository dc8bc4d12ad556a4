import Slotwise.Location
import Slotwise.TypeRef
/-!
# Declarations

What the user declares: records, which receive lenses, variant sets, which receive prisms, and
groups of enumerated keys.

Main statement: a base value that was given is among the values (`mem_keys_insertValue`).
-/

namespace Slotwise

/-- A record type that receives lenses. -/
structure Record where
  /-- The name of the type. -/
  name : String
  /-- Where the record is generated. -/
  location : Location
  /-- The fields in order. -/
  fields : List Field
  /-- What is appended to the name of every setter. -/
  settersSuffix : Option String
  /-- Whether the record can be serialized. -/
  serializable : Bool
  /-- Lines of documentation. -/
  doc : List String
deriving Repr

/-- One case of a variant set. -/
structure Variant where
  /-- The name of the case. -/
  name : String
  /-- The case's own fields in order. -/
  fields : List Field
  /-- The names of own fields that stand in for base fields, sorted and without repetitions. -/
  overrides : List String
  /-- The values of base fields that are not overridden, sorted by field. -/
  baseValues : List (String × String)
  /-- Lines of documentation. -/
  doc : List String
deriving Repr

/-- A closed set of variants that receives prisms. Base fields can be read on every variant: each
variant overrides a base field with a field of its own or supplies its value. -/
structure VariantSet where
  /-- The name of the type. -/
  name : String
  /-- Where the set is generated. -/
  location : Location
  /-- The base fields in order. -/
  fields : List Field
  /-- The variants in order. -/
  variants : List Variant
  /-- What is appended to the name of every setter. -/
  settersSuffix : Option String
  /-- Whether the set can be serialized. -/
  serializable : Bool
  /-- How the set itself is serialized. -/
  serialization : Serialization
  /-- Lines of documentation. -/
  doc : List String
deriving Repr

/-- A family of numbered keys and the key that stands for none of them. -/
structure KeyGroup where
  /-- What the names of the keys start with. -/
  stem : String
  /-- The number of numbered keys. -/
  count : Nat
  /-- Whether the keys can be serialized. -/
  serializable : Bool
  /-- Where the group is generated. -/
  location : Location
deriving DecidableEq, Repr

/-- The pairs sorted by key with the value of `key` set. -/
def insertValue (key value : String) : List (String × String) → List (String × String)
  | [] => [(key, value)]
  | (k, v) :: rest =>
    match compare key k with
    | .lt => (key, value) :: (k, v) :: rest
    | .eq => (key, value) :: rest
    | .gt => (k, v) :: insertValue key value rest

theorem mem_keys_insertValue (key value : String) (pairs : List (String × String)) :
    key ∈ (insertValue key value pairs).map Prod.fst := by
  induction pairs with
  | nil => simp [insertValue]
  | cons pair rest ih =>
    rw [insertValue]
    split <;> simp_all

namespace Record

/-- A record without fields. -/
def new (name : String) : Record :=
  ⟨name, Location.anywhere, [], none, false, []⟩

/-- The record with one more field. -/
def withField (record : Record) (field : Field) : Record :=
  { record with fields := record.fields ++ [field] }

/-- The record at another location. -/
def placedAt (record : Record) (location : Location) : Record :=
  { record with location }

/-- The record with a suffix for its setters. -/
def withSettersSuffix (record : Record) (suffix : String) : Record :=
  { record with settersSuffix := some suffix }

/-- The record with serialization. -/
def withSerialization (record : Record) : Record :=
  { record with serializable := true }

/-- The record with one more line of documentation. -/
def withDoc (record : Record) (line : String) : Record :=
  { record with doc := record.doc ++ [line] }

end Record

namespace Variant

/-- A variant without fields. -/
def new (name : String) : Variant :=
  ⟨name, [], [], [], []⟩

/-- The variant with one more field. -/
def withField (variant : Variant) (field : Field) : Variant :=
  { variant with fields := variant.fields ++ [field] }

/-- The variant with one more field that stands in for the base field of its name. -/
def overriding (variant : Variant) (field : Field) : Variant :=
  { variant with
    fields := variant.fields ++ [field]
    overrides := Ordered.sortedTexts (variant.overrides ++ [field.name]) }

/-- The variant with the value of a base field. -/
def withBaseValue (variant : Variant) (field expression : String) : Variant :=
  { variant with baseValues := insertValue field expression variant.baseValues }

/-- The variant with one more line of documentation. -/
def withDoc (variant : Variant) (line : String) : Variant :=
  { variant with doc := variant.doc ++ [line] }

end Variant

namespace VariantSet

/-- A set without variants. -/
def new (name : String) : VariantSet :=
  ⟨name, Location.anywhere, [], [], none, false, .plain, []⟩

/-- The set with one more base field. -/
def withField (set : VariantSet) (field : Field) : VariantSet :=
  { set with fields := set.fields ++ [field] }

/-- The set with one more variant. -/
def withVariant (set : VariantSet) (variant : Variant) : VariantSet :=
  { set with variants := set.variants ++ [variant] }

/-- The set at another location. -/
def placedAt (set : VariantSet) (location : Location) : VariantSet :=
  { set with location }

/-- The set with a suffix for its setters. -/
def withSettersSuffix (set : VariantSet) (suffix : String) : VariantSet :=
  { set with settersSuffix := some suffix }

/-- The set with serialization. -/
def withSerialization (set : VariantSet) : VariantSet :=
  { set with serializable := true }

/-- The set with one more line of documentation. -/
def withDoc (set : VariantSet) (line : String) : VariantSet :=
  { set with doc := set.doc ++ [line] }

end VariantSet

namespace KeyGroup

/-- A group of `count` keys. -/
def new (stem : String) (count : Nat) : KeyGroup :=
  ⟨stem, count, false, Location.anywhere⟩

/-- The group with serialization. -/
def withSerialization (group : KeyGroup) : KeyGroup :=
  { group with serializable := true }

end KeyGroup

end Slotwise
