import Slotwise.Code.Layout.Type
/-!
# Layout of patterns

Patterns in all their forms. Ranges and constants in patterns are laid out as expressions.
-/

namespace Slotwise.Code.Layout

open Doc

/-- The members of a struct in curly brackets, behind its path; `rest` is what stands for all other
members. -/
def members (limit : Option Nat) (head : Doc) (items : List Doc) (rest : Option Doc) : Doc :=
  let body := match rest with
    | none => listed commaSpaceEnd items
    | some rest => listed (word "," ++ space) items ++ word ".." ++ rest ++ space
  let content := dedent (head ++ word " \x7b" ++ spaceIfMore ++ body)
  (match limit with
    | some limit => stackedWithin limit indent content
    | none => stacked indent content) ++
    word "\x7d"

/-- The node behind the dots of the last item, if the last item stands for all other members. -/
def restOf (items : List Node) : Option (Option Node) :=
  match items.getLast?.map Node.bare with
  | some (.range none false stop) => some stop
  | _ => none

/-- The items that stand for one member each. -/
def ownItems (items : List Node) : List Node :=
  if (restOf items).isSome then items.dropLast else items

/-- The name of a member, written as it is. -/
def memberName : Node → Doc
  | .verbatim tokens => word (tokenText tokens)
  | _ => []

/-- A member of a struct pattern. -/
def memberPattern (below : Layouts) : Node → Doc :=
  attributed below fun
    | .typed name node => memberName name ++ word ": " ++ below.pattern node
    | node => below.pattern node

/-- The elements of a tuple pattern; one alone has a comma behind it if it was written so. -/
def tuplePattern (comma : Bool) (docs : List Doc) : Doc :=
  match docs with
  | [doc] => enclosed "(" (doc ++ (if comma then word "," else []) ++ zeroBreak) ")"
  | docs => enclosedList "(" docs ")"

/-- Alternatives; literals among themselves fill lines. -/
def alternatives (below : Layouts) (nodes : List Node) : Doc :=
  let isSimple : Node → Bool
    | .wild => true
    | node => isLiteral node
  group 0 (!nodes.all isSimple) (joined (space ++ word "| ") (nodes.map below.pattern))

/-- A pattern. -/
def pattern (below : Layouts) : Node → Doc
  | .attributed nodes subject => attributes below nodes ++ below.pattern subject
  | .capture words name subject =>
    ofWords words ++ word name ++
      ofOption (subject.map fun node => word " @ " ++ below.pattern node)
  | .alternatives _ nodes => alternatives below nodes
  | .paren subject => word "(" ++ below.pattern subject ++ word ")"
  | .reference _ words subject => word "&" ++ ofWords words ++ below.pattern subject
  | .list items _ => word "[" ++ listed commaEnd (items.map below.pattern) ++ word "]"
  | .fields route items _ =>
    members none (path below .expression route) ((ownItems items).map (memberPattern below))
      ((restOf items).map fun _ => [])
  | .tuple items comma => tuplePattern comma (items.map below.pattern)
  | .call route items _ =>
    path below .expression route ++ enclosedList "(" (items.map below.pattern) ")"
  | .typed subject type => below.pattern subject ++ word ": " ++ below.type type
  | node => below.expression false node

end Slotwise.Code.Layout
