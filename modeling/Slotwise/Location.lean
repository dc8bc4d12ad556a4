import Slotwise.FilePath
import Slotwise.ModulePath
import Slotwise.Ordered
/-!
# Locations

A location says where generated files go: the source root on disk, the domain (the module path from
the crate root to the generated tree) and the package below the domain. A location may leave fields
open; a place has all three.

Main statement: filling open fields from a parent is associative, so it does not matter in which
order nested locations are combined (`inherit_assoc`).
-/

namespace Slotwise

/-- Where files go, with open fields. -/
structure Location where
  /-- The directory that the generated tree is written below. -/
  sourceRoot : Option String
  /-- The module path from the crate root to the generated tree. -/
  domain : Option String
  /-- The module path of the package below the domain. -/
  package : Option String
deriving DecidableEq, Repr

/-- Where files go, with every field given. -/
structure Place where
  /-- The directory that the generated tree is written below. -/
  sourceRoot : String
  /-- The module path from the crate root to the generated tree. -/
  domain : String
  /-- The module path of the package below the domain. -/
  package : String
deriving DecidableEq, Repr

/-- What the locations of a request fall back to, and which module indexes it asks for. -/
structure OutputOptions where
  /-- The source root of locations without one. -/
  sourceRoot : String
  /-- The domain of locations without one; empty when the generated tree is the crate root. -/
  domain : String
  /-- Whether every directory that the generator owns gets a module index. -/
  moduleIndex : Bool
  /-- Whether directories shared with other code get a module index as well. -/
  rootIndex : Bool
deriving DecidableEq, Repr

/-- The options of a request that says nothing about its output. -/
def OutputOptions.default : OutputOptions :=
  ⟨"src", "", true, false⟩

namespace Location

/-- The location that leaves every field open. -/
def anywhere : Location := ⟨none, none, none⟩

/-- The location that only names a package. -/
def inPackage (package : String) : Location := ⟨none, none, some package⟩

/-- The location with its open fields taken from `parent`. -/
def inherit (location parent : Location) : Location :=
  ⟨location.sourceRoot <|> parent.sourceRoot, location.domain <|> parent.domain,
    location.package <|> parent.package⟩

/-- The location with every field replaced that `forced` gives. -/
def overriddenBy (location forced : Location) : Location :=
  forced.inherit location

/-- The place that the location names under these options; `package` stands in for an open
package. -/
def resolve (location : Location) (options : OutputOptions) (package : String) : Place :=
  ⟨location.sourceRoot.getD options.sourceRoot, location.domain.getD options.domain,
    location.package.getD package⟩

/-- The order of locations by source root, domain and package, an open field first. -/
def compare (l₁ l₂ : Location) : Ordering :=
  (Ordered.compareOptional l₁.sourceRoot l₂.sourceRoot).then
    ((Ordered.compareOptional l₁.domain l₂.domain).then
      (Ordered.compareOptional l₁.package l₂.package))

@[simp] theorem anywhere_inherit (parent : Location) : anywhere.inherit parent = parent := by
  cases parent; rfl

@[simp] theorem inherit_anywhere (location : Location) :
    location.inherit anywhere = location := by
  rcases location with ⟨_ | _, _ | _, _ | _⟩ <;> rfl

theorem inherit_assoc (l₁ l₂ l₃ : Location) :
    (l₁.inherit l₂).inherit l₃ = l₁.inherit (l₂.inherit l₃) := by
  rcases l₁ with ⟨_ | _, _ | _, _ | _⟩ <;> rcases l₂ with ⟨_ | _, _ | _, _ | _⟩ <;> rfl

end Location

namespace Place

/-- The segments of the module path from the crate root. -/
def segments (place : Place) : List String :=
  ModulePath.segments place.domain ++ ModulePath.segments place.package

/-- The module path from the crate root. -/
def modulePath (place : Place) : String :=
  ModulePath.ofSegments place.segments

/-- The directory of the place's files, below the output root. -/
def directory (place : Place) : FilePath :=
  place.segments.foldl FilePath.push ⟨place.sourceRoot⟩

/-- The same domain with another package. -/
def withPackage (place : Place) (package : String) : Place :=
  { place with package }

/-- The order of places by source root, domain and package. -/
def compare (p₁ p₂ : Place) : Ordering :=
  (Ord.compare p₁.sourceRoot p₂.sourceRoot).then
    ((Ord.compare p₁.domain p₂.domain).then (Ord.compare p₁.package p₂.package))

end Place

end Slotwise
