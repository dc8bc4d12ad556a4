import Slotwise.Code.Layout.Doc
import Slotwise.Code.Precedence
/-!
# Layouts that refer to each other

The layouts of types, patterns, expressions, statements and items refer to each other; `Layouts`
collects them, so each is written against the layouts one level deeper, and `Slotwise.Code.Layout`
ties them together. The way of writing that all of them share, tokens as they are, is here.
-/

namespace Slotwise.Code

namespace Layout

/-- The layouts that refer to each other. -/
structure Layouts where
  /-- A type. -/
  type : Node → Doc
  /-- A bound of a type. -/
  bound : Node → Doc
  /-- A pattern. -/
  pattern : Node → Doc
  /-- An expression; the flag tells whether it begins a line. -/
  expression : Bool → Node → Doc
  /-- What stands before a link of a chain of members; the flag tells whether it begins a line. -/
  link : Bool → Node → Doc
  /-- The statements of a block. -/
  statements : List Node → Doc
  /-- An item of a file or module. -/
  item : Node → Doc
  /-- An item of an implementation or trait. -/
  member : Node → Doc

/-- The tokens on one line with blanks between them, joint marks apart. -/
def tokenText : List Token → String
  | [] => ""
  | [token] => String.join token.flat
  | .mark c true :: rest => String.singleton c ++ tokenText rest
  | token :: rest => " ".intercalate token.flat ++ " " ++ tokenText rest

/-- Whether the node is a literal in an expression or pattern; truth values are, and a number with a
sign is. -/
def isLiteral : Node → Bool
  | .literal _ | .unary "-" (.literal _) => true
  | .path false [.segment "true" none] | .path false [.segment "false" none] => true
  | _ => false

/-- Whether the node is an inner attribute. -/
def isInnerAttribute : Node → Bool
  | .attr inner _ => inner
  | _ => false

end Layout

end Slotwise.Code
