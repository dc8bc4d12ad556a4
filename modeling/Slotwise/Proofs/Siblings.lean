import Slotwise.Proofs.Locations
/-!
# Packages beside each other

Families of different kinds stand beside each other in the folders of their kinds. The package of a
kind is derived from any of them: a folder at the end gives way to the folder of the kind, and any
other segment stays. Jobs and the code that they generate derive packages from derived ones, so it
must not count how often a package was derived, and for which kinds.

Main statement: deriving the package of a kind undoes every derivation before it, and what it leaves
of a package are its segments without the last folder (`derivePackage_absorbs`).
-/

namespace Slotwise.Naming

/-- The segment is the folder of some kind. -/
def IsFolder (segment : String) : Prop :=
  ∃ kind : Kind, kind.folder? = some segment

/-- No segment of the module path holds a colon, so the path can be written again from its segments.
-/
def ColonFree (path : String) : Prop :=
  ∀ segment ∈ ModulePath.segments path, ':' ∉ segment.toList

theorem endsInFolder_iff (last? : Option String) :
    (Kind.all.any fun other => other.folder?.isSome && other.folder? == last?) = true ↔
      ∃ last, last? = some last ∧ IsFolder last := by
  simp only [List.any_eq_true, Bool.and_eq_true, beq_iff_eq]
  constructor
  · intro found
    rcases found with ⟨kind, -, isFolder, same⟩
    obtain ⟨folder, given⟩ := Option.isSome_iff_exists.1 isFolder
    exact ⟨folder, same.symm.trans given, kind, given⟩
  · intro found
    rcases found with ⟨folder, rfl, kind, given⟩
    exact ⟨kind, Kind.mem_all kind, by rw [given]; rfl, given⟩

/-! ## What stays of a package -/

theorem packageBase_of_folder {package folder : String} {front : List String}
    (split : ModulePath.segments package = front ++ [folder]) (isFolder : IsFolder folder) :
    packageBase package = front := by
  have last : (ModulePath.segments package).getLast? = some folder := by
    rw [split, List.getLast?_concat]
  rw [packageBase, if_pos ((endsInFolder_iff _).2 ⟨folder, last, isFolder⟩), split,
    List.dropLast_concat]

theorem packageBase_of_notFolder {package : String}
    (other : ∀ front last, ModulePath.segments package = front ++ [last] → ¬IsFolder last) :
    packageBase package = ModulePath.segments package := by
  rw [packageBase, if_neg]
  intro ends
  obtain ⟨last, given, isFolder⟩ := (endsInFolder_iff _).1 ends
  obtain ⟨front, split⟩ := List.getLast?_eq_some_iff.1 given
  exact other front last split isFolder

section Derived

variable {kind : Kind} {folder package : String}

theorem segments_derivePackage (given : kind.folder? = some folder)
    (colonFree : ColonFree package) :
    ModulePath.segments (derivePackage kind package) = packageBase package ++ [folder] := by
  rw [derivePackage_eq given]
  apply ModulePath.segments_ofSegments_append colonFree (packageBase_subset package)
  intro segment member
  rw [List.mem_singleton.1 member]
  exact ModulePath.plain_of_isLegal (isLegal_of_folder? given)

/-- The derived package ends in a folder, and before that stands what stays of the package. -/
theorem packageBase_derivePackage (given : kind.folder? = some folder)
    (colonFree : ColonFree package) :
    packageBase (derivePackage kind package) = packageBase package :=
  packageBase_of_folder (segments_derivePackage given colonFree) ⟨kind, given⟩

/-- It does not count for which kind a package was derived before. -/
theorem derivePackage_derivePackage {other : Kind} {otherFolder : String}
    (given : kind.folder? = some folder) (givenOther : other.folder? = some otherFolder)
    (colonFree : ColonFree package) :
    derivePackage other (derivePackage kind package) = derivePackage other package := by
  rw [derivePackage_eq givenOther, derivePackage_eq givenOther,
    packageBase_derivePackage given colonFree]

/-- Nor does it for places. -/
theorem sibling_sibling {place : Place} {other : Kind} {otherFolder : String}
    (given : kind.folder? = some folder) (givenOther : other.folder? = some otherFolder)
    (colonFree : ColonFree place.package) :
    sibling (sibling place kind) other = sibling place other := by
  have absorbed := derivePackage_derivePackage given givenOther colonFree
  show place.withPackage (derivePackage other (derivePackage kind place.package)) = _
  rw [absorbed]
  rfl

end Derived

/-! ## Derivation undone -/

/-- Deriving the package of a kind undoes the derivation for another one, of which the same kind is
a case. So the place beside a place beside another one stands beside that one itself, and the way
from a family to one beside it and back ends where it began. The package of a kind has the segments
of the package that it was derived from, without the last one if that is the folder of some kind,
and the folder of the kind behind them. -/
theorem derivePackage_absorbs {first second : Kind} {folder₁ folder₂ : String}
    (given₁ : first.folder? = some folder₁) (given₂ : second.folder? = some folder₂)
    {package : String} (colonFree : ColonFree package) :
    derivePackage second (derivePackage first package) = derivePackage second package ∧
    (∀ place : Place, place.package = package →
      sibling (sibling place first) second = sibling place second ∧
        sibling (sibling (sibling place first) second) first = sibling place first) ∧
    (∀ front last, ModulePath.segments package = front ++ [last] → IsFolder last →
      ModulePath.segments (derivePackage first package) = front ++ [folder₁]) ∧
    ((∀ front last, ModulePath.segments package = front ++ [last] → ¬IsFolder last) →
      ModulePath.segments (derivePackage first package) =
        ModulePath.segments package ++ [folder₁]) := by
  have derived := segments_derivePackage given₁ colonFree
  refine ⟨derivePackage_derivePackage given₁ given₂ colonFree, ?_, ?_, ?_⟩
  · intro place same
    subst same
    have beside := sibling_sibling given₁ given₂ colonFree
    refine ⟨beside, ?_⟩
    rw [beside]
    exact sibling_sibling given₂ given₁ colonFree
  · intro front last split isFolder
    rw [derived, packageBase_of_folder split isFolder]
  · intro other
    rw [derived, packageBase_of_notFolder other]

/-- Of a package that is made of two folders only the last one gives way, however it is written. -/
theorem derivePackage_absorbs_nested :
    (Kind.evolution.folder? = some "evoleq" ∧ Kind.duality.folder? = some "duality") ∧
    ColonFree " app::::products :: sums::" ∧
    derivePackage .duality (derivePackage .evolution " app::::products :: sums::") =
      derivePackage .duality " app::::products :: sums::" ∧
    ModulePath.segments (derivePackage .evolution " app::::products :: sums::") =
      ["app", "products", "evoleq"] := by
  have colonFree : ∀ segment ∈ ModulePath.segments " app::::products :: sums::",
      ':' ∉ segment.toList := by
    decide +kernel
  obtain ⟨absorbed, -, replaced, -⟩ := derivePackage_absorbs
    (rfl : Kind.evolution.folder? = some "evoleq") (rfl : Kind.duality.folder? = some "duality")
    colonFree
  refine ⟨⟨rfl, rfl⟩, colonFree, absorbed, ?_⟩
  exact replaced ["app", "products"] "sums" (by decide +kernel) ⟨.sums, rfl⟩

end Slotwise.Naming
