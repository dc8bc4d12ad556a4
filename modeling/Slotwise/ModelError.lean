import Slotwise.Text.Quoted
/-!
# Errors of the model

What can be wrong with a selection or a type by itself, before any code is generated.
-/

namespace Slotwise

/-- A model value that breaks one of the model's own rules. -/
inductive ModelError where
  /-- Products and sums have at least two slots. -/
  | invalidDimension (dimension : Nat)
  /-- A range ends before it starts. -/
  | emptyRange (first last : Nat)
  /-- A list of dimensions has no members. -/
  | emptyList
  /-- A composite has no members. -/
  | emptyComposite
  /-- A type lists type variables although it is not declared parametric. -/
  | genericMismatch (name : String) (variableNames : List String)
deriving DecidableEq, Repr

namespace ModelError

/-- The name of the kind of error. -/
def kind : ModelError → String
  | invalidDimension _ => "InvalidDimension"
  | emptyRange _ _ => "EmptyRange"
  | emptyList | emptyComposite => "EmptySelection"
  | genericMismatch _ _ => "GenericMismatch"

/-- The message shown to the user. -/
def message : ModelError → String
  | invalidDimension d => s!"Invalid dimension {d}: dimensions must be at least 2"
  | emptyRange first last => s!"Empty dimension range {first}..={last}"
  | emptyList => "Empty list selection"
  | emptyComposite => "Empty composite selection"
  | genericMismatch name variableNames =>
    s!"Type '{name}' lists type variables " ++ Text.quoteMessageList variableNames ++
      " but is not declared parametric"

end ModelError

end Slotwise
