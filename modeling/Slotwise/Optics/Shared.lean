import Slotwise.Declaration
import Slotwise.Failure
/-!
# Fields shared across variants

A field name that occurs in at least two variants of a set is one shared parameter, so it has to
have the same type everywhere. Types count as the same when their texts agree up to blanks.
-/

namespace Slotwise.Optics

/-- A field that occurs in at least two variants. -/
structure SharedField where
  /-- The name of the field. -/
  name : String
  /-- The type, as written where the field occurs first. -/
  type : TypeRef
  /-- The places of the field: the variant and the field in it, both counted from 1. -/
  occurrences : List (Nat × Nat)
deriving Repr

namespace SharedField

/-- Whether every one of `count` variants has the field. -/
def covers (shared : SharedField) (count : Nat) : Bool :=
  shared.occurrences.length == count

/-- Whether two types are written alike up to blanks. -/
def sameType (t₁ t₂ : TypeRef) : Bool :=
  Text.withoutBlanks t₁.name == Text.withoutBlanks t₂.name

/-- The fields seen so far with one more field at this place. -/
def note (owner : String) (place : Nat × Nat) (field : Field) :
    List SharedField → Except Failure (List SharedField)
  | [] => .ok [⟨field.name, field.type, [place]⟩]
  | seen :: rest =>
    if seen.name = field.name then
      if sameType seen.type field.type then
        .ok ({ seen with occurrences := seen.occurrences ++ [place] } :: rest)
      else .error (.sharedTypeClash owner field.name seen.type.name field.type.name)
    else do return seen :: (← note owner place field rest)

/-- The fields of a variant set with their places, from left to right. -/
def places (set : VariantSet) : List ((Nat × Nat) × Field) :=
  set.variants.zipIdx.flatMap fun (variant, v) =>
    variant.fields.zipIdx.map fun (field, f) => ((v + 1, f + 1), field)

/-- All fields of a variant set by name, in the order in which they appear. -/
def collectAll (set : VariantSet) : Except Failure (List SharedField) :=
  (places set).foldlM (fun seen (place, field) => note set.name place field seen) []

/-- The shared fields of a variant set in the order in which they appear. -/
def collect (set : VariantSet) : Except Failure (List SharedField) := do
  return (← collectAll set).filter fun shared => shared.occurrences.length ≥ 2

end SharedField

end Slotwise.Optics
