import Mathlib.Data.List.Perm.Basic
import Mathlib.Data.List.Dedup
import Slotwise.Naming
import Slotwise.Code.Build
/-!
# Ownership of variables

A variable that an expression names is moved out of, unless the expression only refers to it or
reads through it. Closures that take what they use move every variable that their body uses and
their inputs do not bind. Statements are sound if they use no variable before it is bound and none
after it was moved (`ownedAfter`). Only the forms are described that bodies of declarations,
references, closures and struct literals are made of.
-/

namespace Slotwise.Code

open Naming

/-- What an expression does with a variable. -/
inductive Handling where
  /-- The variable is empty afterwards. -/
  | moved
  /-- The variable is only looked at. -/
  | viewed
deriving DecidableEq

/-- The variables that some uses concern, with all of them only looked at. -/
def viewedOnly (uses : List (Handling × String)) : List (Handling × String) :=
  uses.map fun use => (.viewed, use.2)

/-- The variables that a closure with these inputs takes along for its body. -/
def captured (inputs : List Node) (uses : List (Handling × String)) : List (Handling × String) :=
  let bound := inputs.filterMap fun
    | .typed (.capture [] name none) _ => some (withoutRawMark name)
    | _ => none
  ((uses.map Prod.snd).filter fun name => !bound.contains name).dedup.map (.moved, ·)

mutual

/-- What an expression or the value of a declaration does with variables. -/
def Node.uses : Node → List (Handling × String)
  | .path false [.segment name none] => [(.moved, withoutRawMark name)]
  | .paren subject => subject.uses
  | .reference _ _ subject => viewedOnly subject.uses
  | .unary _ subject => viewedOnly subject.uses
  | .call subject inputs _ => subject.uses ++ usesOfAll inputs
  | .fields _ items _ => usesOfAll items
  | .typed (.verbatim _) content => content.uses
  | .closure _ ["move"] inputs _ _ body => captured inputs body.uses
  | .letStatement _ (some value) none => value.uses
  | _ => []

/-- What expressions do with variables, one after the other. -/
def usesOfAll : List Node → List (Handling × String)
  | [] => []
  | node :: rest => node.uses ++ usesOfAll rest

end

theorem usesOfAll_eq_flatMap (nodes : List Node) : usesOfAll nodes = nodes.flatMap Node.uses := by
  induction nodes with
  | nil => rfl
  | cons node rest ih => rw [usesOfAll, ih, List.flatMap_cons]

/-- The variables that are still full after some uses, or nothing if a use finds its variable empty
or unbound. -/
def afterUses (owned : List String) : List (Handling × String) → Option (List String)
  | [] => some owned
  | (handling, name) :: rest =>
    if owned.contains name then
      afterUses (match handling with | .moved => owned.erase name | .viewed => owned) rest
    else none

/-- The variables that are still full after some statements, or nothing if a statement uses a
variable that is empty or unbound. -/
def ownedAfter : List String → List Node → Option (List String)
  | owned, [] => some owned
  | owned, .letStatement (.capture [] name none) (some value) none :: rest =>
    (afterUses owned value.uses).bind fun left =>
      ownedAfter (withoutRawMark name :: left.filter (· ≠ withoutRawMark name)) rest
  | owned, statement :: rest =>
    (afterUses owned statement.uses).bind fun left => ownedAfter left rest

/-- A closure that uses its input and one other variable takes that variable along. -/
theorem captured_input {name input : String} (other : name ≠ withoutRawMark input) (type : Node)
    (handling own : Handling) :
    captured [.input input type] [(handling, name), (own, withoutRawMark input)] =
      [(.moved, name)] := by
  simp [captured, Node.input, Node.binding, other]

/-- Moving out of every variable leaves none full. -/
theorem afterUses_moved {owned names : List String} (same : names.Perm owned) :
    afterUses owned (names.map (.moved, ·)) = some [] := by
  induction names generalizing owned with
  | nil =>
    cases List.nil_perm.1 same
    rfl
  | cons name rest ih =>
    obtain ⟨member, others⟩ := List.cons_perm_iff_perm_erase.1 same
    rw [List.map_cons, afterUses, if_pos (List.contains_iff_mem.2 member)]
    exact ih others

theorem ownedAfter_letIs (owned : List String) (name : String) (value : Node) (rest : List Node) :
    ownedAfter owned (.letIs name value :: rest) =
      (afterUses owned value.uses).bind fun left =>
        ownedAfter (withoutRawMark name :: left.filter (· ≠ withoutRawMark name)) rest := by
  rw [Node.letIs, Node.binding, ownedAfter]

end Slotwise.Code
