import Slotwise.Check.Declaration
import Slotwise.Request
/-!
# Checks on requests

What a whole request has to satisfy. Selections come first, then the places that everything
inherits, then records, variant sets and key groups.
-/

namespace Slotwise.Check

/-- Passes if a selection names dimensions, all at legal locations. -/
def selection (selection : Selection) : Except Failure Unit := do
  match selection.simplify with
  | .error error => throw (.model error)
  | .ok choices => choices.forM fun choice => location "selection" choice.location

/-- Passes if everything in a request can be generated. -/
def request (request : Request) : Except Failure Unit := do
  request.selections.forM selection
  location "module" request.module
  location "output" ⟨none, some request.output.domain, none⟩
  request.records.forM record
  request.variantSets.forM variantSet
  request.keys.forM keyGroup

end Slotwise.Check
