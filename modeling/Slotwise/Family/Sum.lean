import Slotwise.Code.Build
import Slotwise.ItemPath
/-!
# Sums

The code of the sum types: for each dimension an enumeration with one case per slot, the function
that handles all cases, the injections and the maps of single cases.
-/

namespace Slotwise.Family.Sum

open Code Code.Node Naming

/-- The file of the trait that marks sums. -/
def marker : File :=
  ⟨[fileDoc " Marker capability shared by all sum types."],
    [attributed [docLine " Implemented by every generated `SumN`."]
      (isPublic (traitItem [] "Sum" none [] none []))]⟩

/-- The sum type with these types in its slots. -/
def type (dimension : Nat) (slots : List String) : Node :=
  appliedTo (sumType dimension) slots

/-- The case of `owner` in a slot with this payload, as an expression or pattern. -/
def inCase (owner : String) (slot : Nat) (payload : Node) : Node :=
  call (namedAlong [owner, summand slot]) [payload] false

/-- A choice with one arm for each case of the variable `subject`. -/
def byCase (subject owner : String) (dimension : Nat) (payload : String)
    (body : Nat → Node) : Node :=
  choice (named subject)
    ((slotsDown dimension).map fun slot =>
      arm (inCase owner slot (binding payload)) none (body slot) true)

/-- The enumeration itself. -/
def enumeration (dimension : Nat) : Node :=
  attributed
    [docLine (s!" A closed union of {dimension} variants, " ++
        s!"`Summand{dimension}` down to `Summand1`."),
      derivation ["Debug", "Clone", "Copy", "PartialEq", "Eq", "Hash"]]
    (isPublic (.enumeration (sumType dimension)
      (some (parameters (slotNames "S" dimension 1))) none
      ((slotsDown dimension).map fun slot =>
        tupleVariant (summand slot) [named s!"S{slot}"] false none) true))

/-- The function that handles all cases. -/
def caseFunction (dimension : Nat) : Node :=
  let slots := slotNames "S" dimension 1
  behind (docLine (s!" Eliminates a [`{sumType dimension}`] by applying the case function " ++
      "of its active variant.") :: allowingArguments dimension)
    (publicFunction s!"sum{dimension}" (some (parameters (slots ++ ["T"])))
      ((slotsDown dimension).map fun slot =>
        input s!"f{slot}" (someFunction "Fn" (named s!"S{slot}") (named "T"))) false
      (some (someFunction "Fn" (type dimension slots) (named "T")))
      [closure none ["move"] [input "sum" (type dimension slots)] false none
        (byCase "sum" (sumType dimension) dimension "value" fun slot =>
          call (named s!"f{slot}") [named "value"] false)])

/-- The function that puts a value into one case. -/
def injectionItem (dimension slot : Nat) : Node :=
  let slots := slotNames "S" dimension 1
  let whole := type dimension slots
  attributed [docLine s!" Injection into `{summand slot}` of a [`{sumType dimension}`]."]
    (publicFunction (injection dimension slot) (some (parameters slots)) [] false
      (some (someFunction "Fn" (named s!"S{slot}") whole))
      [closure none [] [input "value" (named s!"S{slot}")] false (some whole)
        (block [] [inCase (sumType dimension) slot (named "value")])])

/-- The method that maps the payload of one case. -/
def mapItem (dimension slot : Nat) : Node :=
  attributed
    [docLine s!" Maps the payload of `Summand{slot}`; other variants pass through."]
    (publicFunction (mapSlot slot) (some (parameters [s!"T{slot}"]))
      [self, input "f" (someFunction "FnOnce" (named s!"S{slot}") (named s!"T{slot}"))] false
      (some (type dimension (slotNamesWith "S" dimension slot "T")))
      [byCase "self" "Self" dimension "value" fun i =>
        inCase (sumType dimension) i
          (if i = slot then call (named "f") [named "value"] false else named "value")])

/-- The file of the sum type of a dimension, generated at `place`. -/
def file (dimension : Nat) (place : Place) : Except Failure File := do
  let markerPath ← ItemPath.ofFileItem place sumMarkerModule "Sum"
  let slots := slotNames "S" dimension 1
  let generics := some (parameters slots)
  return ⟨[fileDoc s!" Sum of {dimension} variants."],
    [importing markerPath, enumeration dimension,
      traitFor generics (named "Sum") (type dimension slots) [], caseFunction dimension] ++
    (slotsUp dimension).map (injectionItem dimension) ++
    [methodsOf generics (type dimension slots)
      ((slotsDown dimension).map (mapItem dimension))]⟩

end Slotwise.Family.Sum
