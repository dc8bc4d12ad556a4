import Slotwise.Code.Node
/-!
# Operators and how tightly they bind

The infix operators with their precedence, and which expressions stand as statements without a
semicolon or as the body of an arm without a comma.
-/

namespace Slotwise.Code

namespace Precedence

/-- The lowest precedence, of jumps and closures. -/
def jump : Nat := 0

/-- The precedence of assignments. -/
def assign : Nat := 1

/-- The precedence of ranges. -/
def range : Nat := 2

/-- The precedence of comparisons. -/
def compare : Nat := 6

/-- The precedence of conversions. -/
def cast : Nat := 13

/-- The infix operators in the order in which they are looked for, with their precedence. -/
def operators : List (String × Nat) :=
  [("+=", 1), ("-=", 1), ("*=", 1), ("/=", 1), ("%=", 1), ("^=", 1), ("&=", 1), ("|=", 1),
    ("<<=", 1), (">>=", 1), ("&&", 4), ("||", 3), ("<<", 10), (">>", 10), ("==", 6), ("<=", 6),
    ("!=", 6), (">=", 6), ("+", 11), ("-", 11), ("*", 12), ("/", 12), ("%", 12), ("^", 8),
    ("&", 9), ("|", 7), ("<", 6), (">", 6)]

/-- The precedence of an infix operator; an assignment is one too. -/
def ofOperator (text : String) : Nat :=
  if text == "=" then assign else (operators.lookup text).getD jump

end Precedence

namespace Node

/-- The node without its outer attributes. -/
def bare : Node → Node
  | attributed _ subject => subject
  | node => node

/-- Whether the node is a range. -/
def isRange : Node → Bool
  | range .. => true
  | _ => false

/-- Whether an expression ends an arm without a comma. -/
def endsArm (node : Node) : Bool :=
  match node.bare with
  | conditional .. | choice .. | whileLoop .. | forever _ | forLoop .. | labeled .. => true
  | block words _ => !words.contains "async"
  | _ => false

/-- Whether an expression stands as a statement without a semicolon. -/
def endsStatement (node : Node) : Bool :=
  match node.bare with
  | macroCall _ _ bracket _ => bracket == .curly
  | _ => node.endsArm

/-- Whether an expression ends with a curly bracket. -/
def endsWithCurly : Node → Bool
  | block .. | conditional .. | choice .. | whileLoop .. | forever _ | forLoop .. => true
  | labeled _ subject => subject.endsWithCurly
  | fields .. => true
  | attributed _ subject => subject.endsWithCurly
  | binary _ _ right => right.endsWithCurly
  | jump _ _ (some value) => value.endsWithCurly
  | closure _ _ _ _ _ body => body.endsWithCurly
  | letCondition _ subject => subject.endsWithCurly
  | macroCall _ _ bracket _ => bracket == .curly
  | range _ _ (some stop) => stop.endsWithCurly
  | reference _ _ subject => subject.endsWithCurly
  | unary _ subject => subject.endsWithCurly
  | _ => false

end Node

end Slotwise.Code
