import Slotwise.Location
import Slotwise.Naming
/-!
# Paths to generated items

Generated code names other generated items from the root of the crate through the file that defines
them, so it does not depend on what module indexes export.
-/

namespace Slotwise.ItemPath

/-- The names on the path from the root of the crate along a module path, whose segments have to be
legal identifiers. -/
def fromRoot (modulePath : String) : Except Failure (List String) := do
  return "crate" :: (← (ModulePath.segments modulePath).mapM Naming.legal)

/-- The path to an item of the module of a place. -/
def ofItem (place : Place) (item : String) : Except Failure (List String) := do
  return (← fromRoot place.modulePath) ++ [item]

/-- The path to an item of a file in the module of a place. -/
def ofFileItem (place : Place) (file item : String) : Except Failure (List String) := do
  return (← fromRoot (ModulePath.joined [place.modulePath, file])) ++ [item]

end Slotwise.ItemPath
