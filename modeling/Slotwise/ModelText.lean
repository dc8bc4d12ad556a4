import Slotwise.Failure
import Slotwise.Code.Grammar
/-!
# Texts of the model

Names, types, default values, attributes and paths are plain texts in the model. Here they are read
as code; a failure names the declaration that owns the text.
-/

namespace Slotwise.ModelText

open Code

/-- Words that are reserved although they read as identifiers. -/
def reservedWords : List String := ["gen"]

/-- What was read, or a failure that names the owner and what was expected. -/
def orInvalid {α : Type} (owner expected text : String) : Option α → Except Failure α
  | some x => .ok x
  | none => .error (.invalidText owner expected text)

/-- The identifier that the text consists of; `expected` says what it is to name. -/
def identifier (owner expected text : String) : Except Failure String :=
  if reservedWords.contains text then .error (.reservedText owner expected text)
  else orInvalid owner expected text (Node.identifier? text)

/-- The type that the text consists of. -/
def type (owner text : String) : Except Failure Node :=
  orInvalid owner "type" text (Node.type? text)

/-- The expression that the text consists of. -/
def expression (owner text : String) : Except Failure Node :=
  orInvalid owner "expression" text (Node.expression? text)

/-- The attribute body that the text consists of. -/
def modifier (owner text : String) : Except Failure Node :=
  orInvalid owner "attribute" text (Node.attribute? text)

/-- The path without arguments that the text consists of. -/
def path (owner text : String) : Except Failure Node :=
  orInvalid owner "path" text (Node.path? text)

theorem type_eq_ok_iff {owner text : String} {node : Node} :
    type owner text = .ok node ↔ Node.type? text = some node := by
  unfold type orInvalid
  split <;> simp_all

end Slotwise.ModelText
