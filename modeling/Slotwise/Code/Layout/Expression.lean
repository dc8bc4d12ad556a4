import Slotwise.Code.Layout.Pattern
/-!
# Layout of expressions

Expressions in all their forms. A chain of members puts each member on a line of its own when it
does not fit, an operator starts the line of its right operand, and a body that does not fit behind
its arrow or its bars gets brackets.
-/

namespace Slotwise.Code.Layout

open Doc

/-! ## Classes of expressions -/

/-- Whether the expression brings its own brackets, so that it can hug the brackets of a call. -/
def bringsBrackets : Node → Bool
  | .list .. | .block .. | .closure .. | .fields .. | .tuple .. | .labeled _ (.block ..) => true
  | _ => false

/-- Whether the expression is a name that is no longer than one level of indentation. -/
def isShortName : Node → Bool
  | .path false [.segment name none] =>
    name.utf8ByteSize ≤ 4 && name != "true" && name != "false"
  | _ => false

/-- Whether a bracket behind the expression belongs on a new line when the expression is broken. -/
def breaksBeforeBody : Node → Bool
  | .attributed _ node => breaksBeforeBody node
  | .await _ | .cast .. | .member .. | .index .. | .method .. | .binary .. => true
  | .call node _ _ | .letCondition _ node | .paren node | .range _ _ (some node)
  | .reference _ _ node | .question node | .unary _ node => breaksBeforeBody node
  | .jump word _ (some node) => word != "continue" && breaksBeforeBody node
  | _ => false

/-- Whether the expression is the same when it stands as a statement. -/
def standsAsStatement : Node → Bool
  | .attributed _ node => standsAsStatement node
  | .binary "=" node _ | .await node | .member node _ | .method node _ _ _ _ | .question node =>
    standsAsStatement node
  | .binary _ node _ | .call node _ _ | .cast node _ | .index node _ | .range (some node) _ _ =>
    !node.endsArm && standsAsStatement node
  | _ => true

/-- Whether the expression as the last statement of a block gets a semicolon. -/
def getsSemicolon (node : Node) : Bool :=
  match node.bare with
  | .binary text _ _ => Precedence.ofOperator text == Precedence.assign
  | .jump text _ _ => text != "become"
  | _ => false

/-- Whether the elements of an array fill lines: numbers, characters and truth values. -/
def fillsLines : Node → Bool
  | .literal text =>
    match text.toList with
    | '\'' :: _ | 'b' :: '\'' :: _ => true
    | '"' :: _ | 'r' :: _ | 'b' :: _ | 'c' :: _ => false
    | cs => (Literal.afterFloatDigits? cs).isNone
  | .path false [.segment name none] => name == "true" || name == "false"
  | _ => false

/-! ## Blocks -/

/-- The statements of a block, inner attributes apart. -/
def statementsOf (body : List Node) : List Node :=
  body.dropWhile isInnerAttribute

/-- The inner attributes of a block. -/
def innerAttributesOf (body : List Node) : List Node :=
  body.takeWhile isInnerAttribute

/-- Whether the node as the last of a block is an expression without semicolon. -/
def isOpenExpression (node : Node) : Bool :=
  match node.bare with
  | .attr .. | .letStatement .. | .terminated _ | .visible .. | .unitStruct .. | .fieldStruct ..
  | .tupleStruct .. | .enumeration .. | .function .. | .implementation .. | .traitItem ..
  | .typeAlias .. | .constItem .. | .useItem .. | .moduleItem .. => false
  | .macroCall _ name bracket _ => name.isNone && bracket != .curly
  | _ => true

/-- A block that stands on one line if it is a single expression. -/
def smallBlock (below : Layouts) (body : List Node) : Doc :=
  if body.isEmpty then word "\x7b\x7d"
  else
    let inner := attributes below (innerAttributesOf body)
    let content :=
      match statementsOf body with
      | [node] =>
        if isOpenExpression node then filled 0 (below.expression true node) ++ space
        else below.statements [node]
      | statements => below.statements statements
    word "\x7b" ++ dedent (space ++ inner ++ content) ++ word "\x7d"

/-- What stands between the brackets of a block whose statements are each on a line. -/
def lines (below : Layouts) (body : List Node) : Doc :=
  dedent (hardBreakIfMore ++ attributes below (innerAttributesOf body) ++
    below.statements (statementsOf body))

/-- A block behind its opening bracket. -/
def tallBlock (below : Layouts) (body : List Node) : Doc :=
  stacked indent (lines below body) ++ word "\x7d"

/-- The statements of a node that is a block. -/
def bodyOf : Node → List Node
  | .block _ body => body
  | node => [node]

/-! ## Calls and chains -/

/-- The arguments of a call between its brackets; one that brings its own brackets hugs them. -/
def callArguments (below : Layouts) (nodes : List Node) : Doc :=
  let docs := nodes.map (below.expression false)
  match nodes, docs with
  | [node], [doc] =>
    if bringsBrackets node then word "(" ++ doc ++ word ")" else enclosedList "(" [doc] ")"
  | _, docs => enclosedList "(" docs ")"

/-- The place before the dot of a member; a short name at the beginning of a line keeps its first
member. -/
def beforeDot (beginning : Bool) (subject : Node) : Doc :=
  if beginning && isShortName subject then [] else zeroBreak

/-- A method call of a chain. -/
def methodLink (below : Layouts) (beginning unindented : Bool) (receiver : Node) (name : String)
    (own : Option Node) (inputs : List Node) : Doc :=
  below.link beginning receiver ++ beforeDot beginning receiver ++ word ("." ++ name) ++
    ofOption (own.map (arguments below .expression)) ++
      stacked (if unindented then -indent else 0) (callArguments below inputs)

/-- A link of a chain of members. -/
def link (below : Layouts) (beginning : Bool) : Node → Doc
  | .await subject =>
    below.link beginning subject ++ beforeDot beginning subject ++ word ".await"
  | .member subject name =>
    below.link beginning subject ++ beforeDot beginning subject ++ word ("." ++ name)
  | .call callee inputs _ => below.link false callee ++ callArguments below inputs
  | .index subject position =>
    below.link beginning subject ++ word "[" ++ below.expression false position ++ word "]"
  | .method receiver name own inputs _ =>
    methodLink below beginning false receiver name own inputs
  | .question subject => below.link beginning subject ++ word "?"
  | node => stacked (-indent) (below.expression false node)

/-! ## Operators -/

/-- An infix operator at the beginning of the line of its right operand. -/
def infixOperator (left : Doc) (operator : String) (right : Doc) : Doc :=
  filled indent (filled (-indent) left ++ space ++ word (operator ++ " ") ++ right)

/-- A condition, or another expression before a body. -/
def beforeBody (below : Layouts) (node : Node) : Doc :=
  stacked 0 (below.expression false node ++
    if breaksBeforeBody node then space else word " ")

/-- An array. -/
def array (below : Layouts) (nodes : List Node) : Doc :=
  let docs := nodes.map (below.expression false)
  if nodes.isEmpty then word "[]"
  else if nodes.all fillsLines then
    stacked indent
      (dedent (word "[" ++ zeroBreak ++ filled 0 (joined (word "," ++ space) docs) ++ commaEnd) ++
        word "]")
  else enclosedList "[" docs "]"

/-! ## Branches and closures -/

/-- A body that gets brackets when it moves to a line of its own. `ending` is what stands behind
the brackets, `inline` what stands behind the body without them. -/
def movable (below : Layouts) (beginning : Bool) (ending inline : String) (node : Node) : Doc :=
  let braced := standsAsStatement node
  stacked indent
    ([.place { blanks := 0, before := if braced then "\x7b" else "(" }] ++
      below.expression (beginning && braced) node ++
      [.place
        { blanks := 0
          offset := -indent
          before := if braced && getsSemicolon node then ";" else ""
          after := if braced then "\x7d" else ")" ++ ending
          inline := inline }])

/-- The expression that a block consists of, or the node itself. -/
def unwrapped : Node → Node
  | .block [] [node] => if isOpenExpression node then unwrapped node else .block [] [node]
  | .tuple [] _ => .block [] []
  | node => node

/-- One case of a choice. -/
def arm (below : Layouts) : Node → Doc :=
  attributed below fun
    | .arm node guard body _ =>
      filled 0
        (below.pattern node ++
          ofOption (guard.map fun guard => word " if " ++ below.expression false guard) ++
          word " => " ++
          match unwrapped body with
          | .block [] body => word "\x7b" ++ measureHere ++ tallBlock below body
          | .labeled label (.block [] body) =>
            word (label ++ ": \x7b") ++ measureHere ++ tallBlock below body
          | body =>
            measureHere ++ movable below true "," (if body.endsArm then "" else ",") body)
    | node => oneAttribute below node

/-- The branches behind the first one of a conditional. -/
def otherwise (below : Layouts) : Node → Doc
  | .conditional condition body next =>
    word "if " ++ stacked (-indent) (beforeBody below condition) ++
      smallBlock below (bodyOf body) ++
      match next with
      | some next => word " else " ++ otherwise below next
      | none => []
  | node => smallBlock below (bodyOf node)

/-- A conditional. Without another branch its body is not put on the same line. -/
def conditional (below : Layouts) (condition body : Node) : Option Node → Doc
  | some next => stacked indent (otherwise below (.conditional condition body (some next)))
  | none =>
    stacked indent
      (word "if " ++ stacked (-indent) (beforeBody below condition) ++
        match bodyOf body with
        | [] => word "\x7b\x7d"
        | statements =>
          word "\x7b" ++ dedent (hardBreak ++ below.statements statements) ++ word "\x7d")

/-- The body of a closure without output. -/
def closureBody (below : Layouts) (node : Node) : Doc :=
  match node with
  | .choice .. | .call .. => below.expression false node
  | _ => if bringsBrackets node then below.expression false node else
    movable below false "" "" node

/-- A closure. -/
def closure (below : Layouts) (lifetimes : Option Node) (words : List String)
    (inputs : List Node) (result : Option Node) (body : Node) : Doc :=
  let first := if inputs.isEmpty then [] else zeroBreak
  let parameters := word "|" ++ first ++ joined (word "," ++ space) (inputs.map below.pattern)
  filled 0
    (boundLifetimes lifetimes ++ ofWords words ++
      match result with
      | none =>
        stacked indent (dedent (parameters ++ word "|" ++ space)) ++ measureHere ++
          closureBody below body
      | some type =>
        let ending := if inputs.isEmpty then [] else commaEnd
        stacked indent (dedent (parameters ++ ending) ++ word "|") ++ word " -> " ++
          below.type type ++ word " " ++ measureHere ++ below.expression false body)

/-! ## All expressions -/

/-- A member of a struct expression. -/
def memberValue (below : Layouts) : Node → Doc :=
  attributed below fun
    | .typed name value =>
      memberName name ++ word ": " ++ filled 0 (below.expression false value)
    | node => below.expression false node

/-- The width above which the members of a struct expression stand on lines of their own. -/
def widestStruct : Nat := 34

/-- A loop under a condition or over items, behind its first words. -/
def loop (below : Layouts) (head : Doc) (subject body : Node) : Doc :=
  filled 0
    (head ++ beforeBody below subject ++ word "\x7b" ++ measureHere ++
      tallBlock below (bodyOf body))

/-- A choice by patterns. -/
def choice (below : Layouts) (subject : Node) (arms : List Node) : Doc :=
  let isArm : Node → Bool := fun node => !isInnerAttribute node
  let docs := (arms.filter isArm).flatMap fun node => arm below node ++ hardBreak
  filled 0
    (word "match " ++ beforeBody below subject ++ word "\x7b" ++ measureHere ++
      stacked indent
        (dedent (hardBreakIfMore ++ attributes below (innerAttributesOf arms) ++ docs)) ++
      word "\x7d")

/-- An expression; the flag tells whether it begins a line. -/
def expression (below : Layouts) (beginning : Bool) : Node → Doc
  | .attributed nodes subject => attributes below nodes ++ below.expression beginning subject
  | .literal text => word text
  | .path rooted nodes => path below .expression (.path rooted nodes)
  | .projected self asTrait nodes => path below .expression (.projected self asTrait nodes)
  | .list items _ => array below items
  | .repeated item count =>
    word "[" ++ below.expression false item ++ word "; " ++ below.expression false count ++
      word "]"
  | .tuple items _ => enclosedTuple (items.map (below.expression false))
  | .paren subject => word "(" ++ below.expression false subject ++ word ")"
  | .binary "=" left right =>
    filled 0
      (below.expression false left ++ word " = " ++ measureHere ++ below.expression false right)
  | .binary text left right =>
    infixOperator (below.expression false left) text (below.expression false right)
  | .cast subject type => infixOperator (below.expression false subject) "as" (below.type type)
  | .unary text subject => word text ++ below.expression false subject
  | .reference _ words subject =>
    word "&" ++ ofWords words ++ below.expression false subject
  | .range start closed stop =>
    ofOption (start.map (below.expression false)) ++ word (if closed then "..=" else "..") ++
      ofOption (stop.map (below.expression false))
  | .call callee inputs _ => below.expression beginning callee ++ callArguments below inputs
  | .question subject => below.expression beginning subject ++ word "?"
  | .index subject position =>
    below.expression beginning subject ++ word "[" ++ below.expression false position ++ word "]"
  | .await subject => stacked indent (link below beginning (.await subject))
  | .member subject name => stacked indent (link below beginning (.member subject name))
  | .method receiver name own inputs _ =>
    stacked indent
      (methodLink below beginning (beginning && isShortName receiver) receiver name own inputs)
  | .fields route items _ =>
    members (some widestStruct) (filled (-indent) (path below .expression route))
      ((ownItems items).map (memberValue below))
      ((restOf items).map fun stop => ofOption (stop.map (below.expression false)))
  | .closure lifetimes words inputs _ result body =>
    closure below lifetimes words inputs result body
  | .block words body => ofWords words ++ stacked indent (smallBlock below body)
  | .labeled label subject => word (label ++ ": ") ++ below.expression false subject
  | .conditional condition body next => conditional below condition body next
  | .letCondition subject value =>
    word "let " ++ below.pattern subject ++ word " = " ++ measureHere ++
      below.expression false value
  | .forever body => word "loop \x7b" ++ tallBlock below (bodyOf body)
  | .whileLoop condition body => loop below (word "while ") condition body
  | .forLoop node subject body =>
    loop below (word "for " ++ below.pattern node ++ word " in " ++ measureHere) subject body
  | .choice subject arms => choice below subject arms
  | .jump text label value =>
    word text ++ ofOption (label.map fun label => word (" " ++ label)) ++
      ofOption (value.map fun value => word " " ++ below.expression false value)
  | .macroCall route name bracket tokens => macroCall below false route name bracket tokens
  | .wild => word "_"
  | .verbatim tokens => word (tokenText tokens)
  | _ => []

end Slotwise.Code.Layout
