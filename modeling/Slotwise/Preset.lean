import Slotwise.Request
/-!
# Presets

Ready-made requests that are chosen by name.
-/

namespace Slotwise.Preset

/-- A field of a concrete type without package. -/
def plain (name type : String) : Field :=
  Field.new name (TypeRef.named type)

/-! ## Plane geometry -/

/-- A point on a grid. -/
def point : Record :=
  Record.new "Point"
    |>.withDoc "A point on the integer grid."
    |>.withField (plain "x" "i32")
    |>.withField ((plain "y" "i32").withDefault "0" |>.withDoc "Defaults to the x axis.")

/-- A value of any type with a label. -/
def labelled : Record :=
  Record.new "Labelled"
    |>.withDoc "Any value paired with a label."
    |>.withField (Field.new "value" (TypeRef.typeVariable "T"))
    |>.withField (plain "label" "String")

/-- Shapes in the plane. -/
def shape : VariantSet :=
  let label := plain "label" "String"
  VariantSet.new "Shape"
    |>.withDoc "A labelled plane shape."
    |>.withField label
    |>.withVariant (Variant.new "Circle" |>.overriding label |>.withField (plain "radius" "f64"))
    |>.withVariant (Variant.new "Rectangle"
      |>.overriding label
      |>.withField (plain "width" "f64")
      |>.withField (plain "height" "f64"))
    |>.withVariant (Variant.new "Dot"
      |>.withDoc "A shape without extent."
      |>.withBaseValue "label" "String::from(\"dot\")")

/-- Products, sums, dualities and optics over plane shapes. -/
def geometry : Request :=
  let everywhere := Location.anywhere
  { Request.empty with
    products := some (.range 2 5 everywhere)
    sums := some (.range 2 4 everywhere)
    dualities := some (.list [2, 3] everywhere)
    arithmetics := some (.single 4 everywhere)
    records := [point, labelled]
    variantSets := [shape] }

/-! ## Ledger accounts -/

/-- Where the types of the ledger go. -/
def model : Location := Location.inPackage "model"

/-- A ledger account. -/
def account : Record :=
  Record.new "Account"
    |>.withDoc "A ledger account."
    |>.placedAt model
    |>.withSerialization
    |>.withField (plain "id" "u64")
    |>.withField (plain "owner" "String")
    |>.withField ((plain "balance" "i64").withDefault "0")
    |>.withField (Field.new "status"
      ((TypeRef.named "AccountStatus").inPackage "crate::ledger::model"))
    |>.withField (Field.new "display_cache"
        ((TypeRef.named "Option<String>").withGeneric .wrapper |>.withSerialization .transient)
      |>.withDefault "None"
      |>.withDoc "Rendered summary, never persisted.")

/-- The states of an account. -/
def accountStatus : VariantSet :=
  VariantSet.new "AccountStatus"
    |>.withDoc "Lifecycle of an account."
    |>.placedAt model
    |>.withVariant (Variant.new "Open")
    |>.withVariant (Variant.new "Frozen" |>.withField (plain "reason" "String"))
    |>.withVariant (Variant.new "Closed"
      |>.withField (plain "closed_at" "u64")
      |>.withField ((plain "final_balance" "i64").withDefault "0"))

/-- Keys, evolution and serializable optics for a ledger. -/
def accounts : Request :=
  let everywhere := Location.anywhere
  { Request.empty with
    output := { OutputOptions.default with domain := "ledger" }
    evolvingProducts := some (.single 2 everywhere)
    evolvingSums := some (.single 3 everywhere)
    keys := [(KeyGroup.new "Column" 4).withSerialization, KeyGroup.new "Ledger" 2]
    records := [account]
    variantSets := [accountStatus] }

/-! ## Names -/

/-- The presets with their names. -/
def all : List (String × Request) :=
  [("geometry", geometry), ("accounts", accounts)]

/-- The names of the presets. -/
def names : List String := all.map (·.1)

/-- The preset with this name. -/
def find? (name : String) : Option Request := all.lookup name

end Slotwise.Preset
