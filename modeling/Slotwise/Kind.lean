/-!
# Kinds of artifacts

The kinds of generated files. Every kind but the module index owns a folder, which is also the
package that its files go to when none is named.
-/

namespace Slotwise

/-- The kind of a generated file, in the order in which kinds are listed. -/
inductive Kind where
  /-- Product types and their combinators. -/
  | products
  /-- Sum types and their combinators. -/
  | sums
  /-- Transforms between functions out of sums and products of functions. -/
  | duality
  /-- Asynchronous evolution of products and sums. -/
  | evolution
  /-- Records with their lenses. -/
  | lenses
  /-- Variant sets with their prisms. -/
  | prisms
  /-- Enumerated keys. -/
  | keys
  /-- Files that only declare modules. -/
  | index
deriving DecidableEq, Repr

namespace Kind

/-- All kinds in order. -/
def all : List Kind :=
  [products, sums, duality, evolution, lenses, prisms, keys, index]

/-- The word for the kind in configurations and summaries. -/
def name : Kind → String
  | products => "products"
  | sums => "sums"
  | duality => "duality"
  | evolution => "evoleq"
  | lenses => "lenses"
  | prisms => "prisms"
  | keys => "keys"
  | index => "index"

/-- The folder of the kind; the module index has none. -/
def folder? : Kind → Option String
  | index => none
  | kind => some kind.name

/-- Whether the generator owns the whole directory of the kind and may clear it. Records and variant
sets live in packages beside other code, so their kinds are not managed. -/
def isManaged : Kind → Bool
  | products | sums | duality | evolution | keys => true
  | lenses | prisms | index => false

/-- The kind with this name. -/
def ofName? (text : String) : Option Kind :=
  all.find? fun kind => kind.name == text

/-- The place of the kind in the order of kinds. -/
def rank : Kind → Nat
  | products => 0
  | sums => 1
  | duality => 2
  | evolution => 3
  | lenses => 4
  | prisms => 5
  | keys => 6
  | index => 7

theorem mem_all (kind : Kind) : kind ∈ all := by
  cases kind <;> simp [all]

theorem ofName?_name (kind : Kind) : ofName? kind.name = some kind := by
  cases kind <;> decide

theorem name_injective {k₁ k₂ : Kind} (h : k₁.name = k₂.name) : k₁ = k₂ := by
  have := ofName?_name k₁
  rw [h, ofName?_name] at this
  exact (Option.some.inj this).symm

end Kind

end Slotwise
