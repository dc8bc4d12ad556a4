import Slotwise.Code.Build
import Slotwise.Naming
/-!
# Module indexes

The code of a module index, which declares modules and exports everything in them.
-/

namespace Slotwise.ModuleIndex

open Code Code.Node

/-- The file that declares these modules and exports everything in them. -/
def file (doc : String) (modules : List String) : Except Failure File := do
  let names ← (Ordered.sortedTexts modules).mapM Naming.legal
  return ⟨[fileDoc (" " ++ doc)],
    names.map (fun name => isPublic (moduleItem name none)) ++
      names.map fun name => isPublic (useItem false (useStep name (some useAll)))⟩

end Slotwise.ModuleIndex
