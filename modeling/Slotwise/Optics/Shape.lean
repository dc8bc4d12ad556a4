import Slotwise.Code.Build
import Slotwise.ItemPath
/-!
# Setter shapes

A value with `n` fields carries its setters as the empty tuple for `n = 0`, as the bare setter for
`n = 1`, and as a product of setters otherwise. Field `i` in the order of declaration is slot `i` of
the product. Setters are direct or asynchronous.
-/

namespace Slotwise.Optics

open Code Code.Node Naming

/-- Where records and variant sets find the code that they build on. -/
structure Surroundings where
  /-- The place of the products. -/
  products : Place
  /-- The place of the sums. -/
  sums : Place
  /-- The place of the setters. -/
  support : Place
deriving DecidableEq, Repr

/-- The imports of the setters and their functions. -/
def supportImports (around : Surroundings) : Except Failure (List Node) :=
  ["AsyncSetter", "BoxFuture", "Setter", "id_async_setter", "id_setter", "then",
    "then_async"].mapM fun item =>
      importing <$> ItemPath.ofFileItem around.support functionsModule item

/-- The imports of the products for shapes of these widths. -/
def productImports (around : Surroundings) (widths : List Nat) : Except Failure (List Node) :=
  (Ordered.sortedSet compare (widths.filter (· ≥ 2))).mapM fun width =>
    importing <$> ItemPath.ofFileItem around.products (productModule width) (productType width)

/-- Direct or asynchronous setters. -/
inductive Flavor where
  /-- Setters that give a value. -/
  | direct
  /-- Setters that give a future. -/
  | asynchronous
deriving DecidableEq, Repr

namespace Flavor

/-- The type of setters. -/
def setterType : Flavor → String
  | direct => "Setter"
  | asynchronous => "AsyncSetter"

/-- The function that gives the setter which changes nothing. -/
def identity : Flavor → String
  | direct => "id_setter"
  | asynchronous => "id_async_setter"

/-- The function that composes two setters. -/
def compose : Flavor → String
  | direct => "then"
  | asynchronous => "then_async"

/-- The type of an edit of a value. -/
def edit (flavor : Flavor) (type : Node) : Node :=
  let output := match flavor with
    | direct => type
    | asynchronous => applied "BoxFuture" [type]
  bounded (some "impl")
    [functionBound "FnOnce" [type] (some output), Node.lifetime "'static"] false

/-- A value with the setter of this name applied. -/
def applySetter (flavor : Flavor) (setter : String) (value : Node) : Node :=
  let result := call (named setter) [value] false
  match flavor with
  | direct => result
  | asynchronous => .await result

end Flavor

namespace Shape

/-- The type of the setters for fields of these types. -/
def type (flavor : Flavor) : List Node → Node
  | [] => tuple [] false
  | [only] => applied flavor.setterType [only]
  | types =>
    applied (productType types.length)
      (types.reverse.map fun slot => applied flavor.setterType [slot])

/-- The setters that leave `width` fields unchanged. -/
def identity (flavor : Flavor) (width : Nat) : Node :=
  let unchanged := call (named flavor.identity) [] false
  match width with
  | 0 => tuple [] false
  | 1 => unchanged
  | _ =>
    fields (named (productType width))
      ((slotsDown width).map fun slot => fieldIs (factor slot) unchanged) false

/-- The variable for the setter of a field. -/
def setterVariable (index : Nat) : String := s!"setter{index}"

/-- The pattern that takes the setters of `width` fields apart. -/
def pattern (width : Nat) : Node :=
  match width with
  | 0 => tuple [] false
  | 1 => binding (setterVariable 1)
  | _ =>
    fields (named (productType width))
      ((slotsDown width).map fun slot => fieldIs (factor slot) (binding (setterVariable slot)))
      false

/-- The setters in the variable `shape` with the edit `f` behind the setter of one field. -/
def composeSlot (flavor : Flavor) (width index : Nat) (type : Node) (shape : String) : Node :=
  let edit := call (namedAlong ["Box", "new"]) [named "f"] false
  let composed (setter : String) := call (named flavor.compose) [named setter, edit] false
  if width = 1 then composed shape
  else
    method (named shape) (mapSlot index) none
      [closure none ["move"] [input "old" (applied flavor.setterType [type])] false none
        (composed "old")] false

end Shape

/-! ## Code that records and variant sets share -/

/-- The import that serialization needs. -/
def serializationImport (serializable : Bool) : List Node :=
  if serializable then
    [useItem false (useStep "serde"
      (some (useGroup (["Deserialize", "Serialize"].map (useStep · none)) false)))]
  else []

/-- The attribute that derives what every generated type implements. -/
def typeDerivation (serializable : Bool) : Node :=
  derivation (["Debug", "Clone", "PartialEq"] ++
    if serializable then ["Serialize", "Deserialize"] else [])

/-- A documented type alias. -/
def typeAlias (doc name : String) (generics : Option Node) (type : Node) : Node :=
  attributed [docLine doc] (isPublic (Node.typeAlias name generics [] none (some type)))

/-- The function type from a reference to the value to its setters. -/
def transactionType (setters : Node) : Node :=
  someFunction "FnOnce" (shared (named "Self")) setters

/-- The method that applies the setters chosen by a transaction. -/
def setMethod (flavor : Flavor) (doc name : String) (setters : Node) (body : List Node) : Node :=
  let qualifiers : List Token := match flavor with
    | .direct => []
    | .asynchronous => [.word "async"]
  attributed [docLine doc]
    (isPublic (function qualifiers name none
      [self, input "transaction" (transactionType setters)] false (some (named "Self")) none
      (some (block [] body))))

/-- The function that makes a transaction of an edit of the setters. -/
def transactionFunction (doc name : String) (setters : Node) (body : Node) : Node :=
  attributed [docLine doc]
    (publicFunction name none
      [input "block" (someFunction "FnOnce" setters setters)] true
      (some (transactionType setters)) [body])

/-- A method that composes an edit into the setters. -/
structure SetterMethod where
  /-- The name of the method. -/
  name : String
  /-- The type of the edit. -/
  edit : Node
  /-- The line of documentation. -/
  doc : String
  /-- The new setters. -/
  body : Node

namespace SetterMethod

/-- The method with a body, or as a requirement without one. -/
def item (method : SetterMethod) (body : Option Node) : Node :=
  function [] method.name none [self, input "f" method.edit] false (some (named "Self")) none body

/-- The trait with these methods, and its implementation for setters. -/
def items (doc trait : String) (declared declaredOwned : Option Node) (traitType setters : Node)
    (methods : List SetterMethod) : List Node :=
  [attributed [docLine doc]
      (isPublic (traitItem [] trait declared [] none
        (methods.map fun m => attributed [docLine m.doc] (m.item none)))),
    traitFor declaredOwned traitType setters
      (methods.map fun m => m.item (some (block [] [m.body])))]

end SetterMethod

end Slotwise.Optics
