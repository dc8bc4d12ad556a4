import Slotwise.Code.Layout.Expression
/-!
# Layout of statements

Every statement ends its line. Semicolons are written where the form of the statement asks for one,
whether or not one was read.
-/

namespace Slotwise.Code.Layout

open Doc

/-- Whether the semicolon behind an expression is dropped. -/
def dropsSemicolon : Node → Bool
  | .attributed _ node => dropsSemicolon node
  | .labeled _ node => dropsSemicolon node
  | .forLoop .. | .whileLoop .. => true
  | .conditional _ _ none => true
  | .conditional _ _ (some next) => dropsSemicolon next
  | _ => false

/-- The declaration of a variable. -/
def letStatement (below : Layouts) (subject : Node) (value otherwise : Option Node) : Doc :=
  let head :=
    word "let " ++ below.pattern subject ++
      ofOption (value.map fun value =>
        word " = " ++ measureHere ++ below.expression false value)
  let body :=
    match otherwise with
    | none => filled 0 head
    | some block =>
      filled 0 (head ++ space ++ word "else ") ++ measureHere ++
        stacked indent (smallBlock below (bodyOf block))
  body ++ word ";" ++ hardBreak

/-- A statement. -/
def statement (below : Layouts) (node : Node) : Doc :=
  let expressionStatement (subject : Node) (ended : Bool) : Doc :=
    filled 0 (below.expression true subject ++ if ended then word ";" else []) ++ hardBreak
  let macroStatement (ended : Bool) : Node → Doc
    | .macroCall route name bracket tokens =>
      macroCall below ended route name bracket tokens ++ hardBreak
    | _ => []
  match node with
  | .terminated (.verbatim []) => []
  | .terminated subject =>
    match subject.bare with
    | .macroCall .. => attributed below (macroStatement true) subject
    | _ => expressionStatement subject !(dropsSemicolon subject)
  | _ =>
    match node.bare with
    | .letStatement subject value otherwise =>
      attributed below (fun _ => letStatement below subject value otherwise) node
    | .macroCall _ name bracket _ =>
      if name.isSome || bracket == .curly then attributed below (macroStatement true) node
      else expressionStatement node false
    | _ =>
      if isOpenExpression node then expressionStatement node (getsSemicolon node)
      else below.item node

/-- The statements of a block. -/
def statements (below : Layouts) (nodes : List Node) : Doc :=
  nodes.flatMap (statement below)

end Slotwise.Code.Layout
