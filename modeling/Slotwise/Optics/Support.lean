import Slotwise.Code.Build
/-!
# Setters

The code that all lenses and prisms build on: the types of setters, the setters that change nothing,
and their composition, each in a direct and an asynchronous form.
-/

namespace Slotwise.Optics.Support

open Code Code.Node

/-- A boxed trait object. -/
def boxedTrait (bound : Node) : Node :=
  applied "Box" [bounded (some "dyn") [bound] false]

/-- The setter type of a type. -/
def setterOf (type : Node) : Node := applied "Setter" [type]

/-- The boxed future of a type. -/
def futureOf (type : Node) : Node := applied "BoxFuture" [type]

/-- The asynchronous setter type of a type. -/
def asyncSetterOf (type : Node) : Node := applied "AsyncSetter" [type]

/-- The type parameter of all setters. -/
def slot : Node := named "T"

/-- The type parameter of all setters, for values that borrow nothing. -/
def ownedSlot : Node :=
  generics [parameter slot [Node.lifetime "'static"] none] false

/-- A boxed value. -/
def boxed (value : Node) : Node :=
  call (namedAlong ["Box", "new"]) [value] false

/-- A pinned block that runs later. -/
def pinned (value : Node) : Node :=
  call (namedAlong ["Box", "pin"]) [block ["async", "move"] [value]] false

/-- A public type alias of the setters' type parameter. -/
def aliasOf (doc name : String) (type : Node) : Node :=
  attributed [docLine doc]
    (isPublic (Node.typeAlias name (some (parameters ["T"])) [] none (some type)))

/-- The three types of the setters. -/
def types : List Node :=
  [aliasOf " A one-shot edit of a value." "Setter"
      (boxedTrait (functionBound "FnOnce" [slot] (some slot))),
    aliasOf " A boxed, pinned future." "BoxFuture"
      (applied "Pin" [boxedTrait (boundWith "Future" "Output" slot)]),
    aliasOf " A one-shot asynchronous edit of a value." "AsyncSetter"
      (boxedTrait (functionBound "FnOnce" [slot] (some (futureOf slot))))]

/-- The setters that change nothing. -/
def identities : List Node :=
  [attributed [docLine " The setter leaving its value unchanged."]
      (publicFunction "id_setter" (some ownedSlot) [] false (some (setterOf slot))
        [boxed (closure none [] [input "value" slot] false none (named "value"))]),
    attributed [docLine " The asynchronous setter leaving its value unchanged."]
      (publicFunction "id_async_setter" (some ownedSlot) [] false (some (asyncSetterOf slot))
        [boxed (closure none [] [input "value" slot] false (some (futureOf slot))
          (block [] [pinned (named "value")]))])]

/-- The composition of setters. -/
def compositions : List Node :=
  let once (name : String) (value : Node) := call (named name) [value] false
  let value := named "value"
  [attributed [docLine " Applies `first`, then `second`."]
      (publicFunction "then" (some ownedSlot)
        [input "first" (setterOf slot), input "second" (setterOf slot)] false
        (some (setterOf slot))
        [boxed (closure none ["move"] [input "value" slot] false none
          (once "second" (once "first" value)))]),
    attributed [docLine " Awaits `first`, then `second`."]
      (publicFunction "then_async" (some ownedSlot)
        [input "first" (asyncSetterOf slot), input "second" (asyncSetterOf slot)] false
        (some (asyncSetterOf slot))
        [boxed (closure none ["move"] [input "value" slot] false (some (futureOf slot))
          (block [] [pinned (.await (once "second" (.await (once "first" value))))]))])]

/-- The passing of a value to a function. -/
def passing : List Node :=
  let applyIt := call (named "f") [named "value"] false
  [attributed [docLine " Passes `value` to `f`, so edits read left to right."]
      (publicFunction "fluent" (some (parameters ["T", "R"]))
        [input "value" slot, input "f" (someFunction "FnOnce" slot (named "R"))] false
        (some (named "R")) [applyIt]),
    attributed [docLine " Passes `value` to `f` and awaits the result."]
      (isPublic (function [.word "async"] "fluent_async" (some (parameters ["T", "R", "V"]))
        [input "value" slot, input "f" (someFunction "FnOnce" slot (named "V"))] false
        (some (named "R"))
        (some (whereClause
          [predicate none (named "V") [boundWith "Future" "Output" (named "R")]] true))
        (some (block [] [.await applyIt]))))]

/-- The file of the setters. -/
def file : File :=
  ⟨[fileDoc " Setters and their combinators."],
    [importing ["std", "future", "Future"], importing ["std", "pin", "Pin"]] ++ types ++
      identities ++ compositions ++ passing⟩

end Slotwise.Optics.Support
