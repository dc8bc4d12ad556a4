import Slotwise.Proofs.Families
/-!
# Types of products

A type written with the parameters of a file says which values belong to it as soon as it is known
which values belong to each parameter (`Inhabits`). The parameters of a product type run from the
highest slot down, like its components, so its arguments are compared with the components one by
one (`inhabits_product`).
-/

namespace Slotwise.Code

open Naming

section Inhabits

variable {Data : Type} (belongs : String → Value Data → Prop)

mutual

/-- The value belongs to the type, where `belongs` says what belongs to a parameter. -/
def Inhabits : Node → Value Data → Prop
  | .path false [.segment name none], value => belongs name value
  | .path false [.segment name (some (.angled false arguments false))], value =>
    ∃ dimension component, name = productType dimension ∧
      value = productOf dimension component ∧
      InhabitAll arguments ((slotsDown dimension).map component)
  | _, _ => False

/-- Each value belongs to the type at its place. -/
def InhabitAll : List Node → List (Value Data) → Prop
  | [], [] => True
  | type :: types, value :: values => Inhabits type value ∧ InhabitAll types values
  | _, _ => False

end

variable {belongs}

@[simp] theorem inhabits_named (name : String) (value : Value Data) :
    Inhabits belongs (.named name) value ↔ belongs name value := by
  rw [Node.named, Inhabits]

theorem inhabitAll_map {ι : Type} (xs : List ι) (type : ι → Node) (value : ι → Value Data) :
    InhabitAll belongs (xs.map type) (xs.map value) ↔
      ∀ x ∈ xs, Inhabits belongs (type x) (value x) := by
  induction xs with
  | nil => simp [InhabitAll]
  | cons x rest ih => rw [List.map_cons, List.map_cons, InhabitAll, ih, List.forall_mem_cons]

/-- What belongs to a product type is a product whose components belong to the arguments. -/
theorem inhabits_product {dimension : Nat} {type : Nat → Node} {value : Value Data} :
    Inhabits belongs (.applied (productType dimension) ((slotsDown dimension).map type)) value ↔
      ∃ component, value = productOf dimension component ∧
        ∀ slot, 1 ≤ slot → slot ≤ dimension → Inhabits belongs (type slot) (component slot) := by
  rw [Node.applied, Inhabits]
  constructor
  · rintro ⟨other, component, same, rfl, each⟩
    cases productType_injective same
    rw [inhabitAll_map] at each
    exact ⟨component, rfl, fun slot positive below =>
      each slot (mem_slotsDown.2 ⟨positive, below⟩)⟩
  · rintro ⟨component, rfl, each⟩
    refine ⟨dimension, component, rfl, rfl, (inhabitAll_map _ _ _).2 fun slot member => ?_⟩
    obtain ⟨positive, below⟩ := mem_slotsDown.1 member
    exact each slot positive below

end Inhabits

/-! ## Signatures -/

namespace Node

/-- The type of an input. -/
def inputType? : Node → Option Node
  | typed _ type => some type
  | _ => none

/-- The types of the inputs of a function and the type of its output. -/
def signature? : Node → Option (List Node × Node)
  | attributed _ item => item.signature?
  | visible _ item => item.signature?
  | function _ _ _ inputs _ (some output) _ _ => (inputs.mapM inputType?).map (·, output)
  | _ => none

end Node

end Slotwise.Code
