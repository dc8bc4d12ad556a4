import Slotwise.Code.Layout.Attribute
import Slotwise.Code.Layout.Macro
/-!
# Layout of types

Types stay on one line as far as they can; only lists in brackets are broken.
-/

namespace Slotwise.Code.Layout

open Doc

/-- A word before a type, where bounds without a word get `dyn`. -/
def boundsWord (text : Option String) : Doc :=
  word (text.getD "dyn" ++ " ")

/-- The words and the calling convention before a function. -/
def qualifiers (tokens : List Token) : Doc :=
  tokens.flatMap fun token => word (tokenText [token] ++ " ")

/-- Whether the node stands for any number of parameters. -/
def isVariadic : Node → Bool
  | .verbatim _ | .typed _ (.verbatim _) => true
  | _ => false

/-- A parameter of a function pointer. -/
def pointerParameter (below : Layouts) : Node → Doc :=
  attributed below fun
    | .typed name (.verbatim tokens) =>
      path below .plain name ++ word ": " ++ word (tokenText tokens)
    | .typed name type => path below .plain name ++ word ": " ++ below.type type
    | .verbatim tokens => word (tokenText tokens)
    | node => below.type node

/-- The parameters of a function pointer. -/
def pointerParameters (below : Layouts) (inputs : List Node) : Doc :=
  let ending :=
    if (inputs.getLast?.map fun node => isVariadic node.bare).getD false then zeroBreak
    else commaEnd
  listed ending (inputs.map (pointerParameter below))

/-- A type. -/
def type (below : Layouts) : Node → Doc
  | .path rooted nodes => path below .type (.path rooted nodes)
  | .projected self asTrait nodes => path below .type (.projected self asTrait nodes)
  | .repeated item count =>
    word "[" ++ below.type item ++ word "; " ++ below.expression false count ++ word "]"
  | .list [item] _ => word "[" ++ below.type item ++ word "]"
  | .tuple items _ => enclosedTuple (items.map below.type)
  | .paren subject => word "(" ++ below.type subject ++ word ")"
  | .reference life words subject =>
    word "&" ++ ofWords life.toList ++ ofWords words ++ below.type subject
  | .pointer text subject => word ("*" ++ text ++ " ") ++ below.type subject
  | .bounded text bounds _ => boundsWord text ++ plainBounds below.bound bounds
  | .fnPointer lifetimes words inputs _ result =>
    boundLifetimes lifetimes ++ qualifiers words ++
      enclosed "fn(" (pointerParameters below inputs) ")" ++ output below result
  | .macroCall route name bracket tokens => macroCall below false route name bracket tokens
  | .wild => word "_"
  | .never => word "!"
  | .verbatim tokens => word (tokenText tokens)
  | _ => []

end Slotwise.Code.Layout
