import Slotwise.Code.Grammar.Pattern
import Slotwise.Code.Precedence
/-!
# Reading expressions

Expressions by precedence: atoms, what trails behind them, prefix operators and infix operators.
Where a block follows an expression, as behind `if`, struct expressions are not allowed; the readers
take a flag for that. At the start of a statement or of an arm's body, an expression ends with its
block unless a member or a question mark follows.
-/

namespace Slotwise.Code.Grammar

open Reader

/-! ## Small parts -/

/-- The outer attributes before an expression. -/
def expressionAttributes (rules : Rules) : Reader (List Node) :=
  outerAttributes rules

/-- A block: inner attributes and statements in curly brackets. -/
def blockOf (rules : Rules) (words : List String) : Reader Node := do
  let body ← inside .curly do
    let attributes ← innerAttributes rules
    return attributes ++ (← rules.statements)
  return .block words body

/-- Whether an expression can start here. -/
def startsExpression (tokens : List Token) : Bool :=
  (startsAnyWord tokens && !startsWord "as" tokens) ||
    startsGroup .round tokens || startsGroup .square tokens || startsGroup .curly tokens ||
    startsLiteral tokens ||
    (startsSign "!" tokens && !startsSign "!=" tokens) ||
    (startsSign "-" tokens && !startsSign "-=" tokens && !startsSign "->" tokens) ||
    (startsSign "*" tokens && !startsSign "*=" tokens) ||
    (startsSign "|" tokens && !startsSign "|=" tokens) ||
    (startsSign "&" tokens && !startsSign "&=" tokens) ||
    startsSign ".." tokens ||
    (startsSign "<" tokens && !startsSign "<=" tokens && !startsSign "<<=" tokens) ||
    startsSign "::" tokens || startsLifetime tokens || startsSign "#" tokens

/-- The number of a component as it is written back, from an unsuffixed literal. -/
def componentNumber? (text : List Char) : Option String :=
  let digits := text.filter (· ≠ '_')
  if digits.isEmpty || !digits.all Char.isDigit then none
  else
    let number := digits.foldl (fun n c => 10 * n + (c.toNat - '0'.toNat)) 0
    if number < Nat.pow 2 32 then some (toString number) else none

/-- The pieces of a text between dots. -/
def splitDots : List Char → List (List Char)
  | [] => [[]]
  | c :: rest =>
    match splitDots rest with
    | [] => [[c]]
    | first :: others => if c = '.' then [] :: first :: others else (c :: first) :: others

/-! ## Behind an atom -/

/-- The components that a number with dots names, and whether the last dot still waits for a
name. -/
def componentsOf? (text : String) : Option (List String × Bool) := do
  let pieces := splitDots text.toList
  let waiting := pieces.getLast? == some []
  let names ← (if waiting then pieces.dropLast else pieces).mapM componentNumber?
  return (names, waiting)

/-- The arguments of a call. -/
def callArguments (rules : Rules) : Reader (List Node × Bool) :=
  inside .round (listed (rules.expression true))

/-- A named member of `subject`: a future's value, a method call or a field. -/
def memberOf (rules : Rules) (subject : Node) : Reader Node := do
  if ← word? "await" then return .await subject
  match ← get with
  | .literal text :: rest =>
    match componentNumber? text.toList with
    | some name => set rest; return .member subject name
    | none => failure
  | _ =>
    let name ← identifier
    let arguments ←
      if ← sign? "::" then some <$> angled rules true else pure none
    if arguments.isSome || startsGroup .round (← get) then
      let (inputs, comma) ← callArguments rules
      return .method subject name arguments inputs comma
    else return .member subject name

/-- A member of `subject` behind its dot. A number with dots names several components. -/
def dotMember (rules : Rules) (subject : Node) : Reader Node := do
  sign "."
  match ← get with
  | .literal text :: rest =>
    if text.toList.contains '.' then
      match componentsOf? text with
      | some (names, waiting) =>
        set rest
        let inner := names.foldl Node.member subject
        if waiting then memberOf rules inner else return inner
      | none => failure
    else memberOf rules subject
  | _ => memberOf rules subject

/-- Whether a member comes next. -/
def startsDot (tokens : List Token) : Bool :=
  startsSign "." tokens && !startsSign ".." tokens

/-- What trails behind an expression, at most `bound` times. -/
def trailers (rules : Rules) : Nat → Node → Reader Node
  | 0, _ => failure
  | bound + 1, subject => do
    let tokens ← get
    if startsGroup .round tokens then
      let (arguments, comma) ← callArguments rules
      trailers rules bound (.call subject arguments comma)
    else if startsDot tokens && !subject.isRange then
      trailers rules bound (← dotMember rules subject)
    else if startsGroup .square tokens then
      trailers rules bound (.index subject (← inside .square (rules.expression true)))
    else if startsSign "?" tokens && !subject.isRange then
      sign "?"
      trailers rules bound (.question subject)
    else return subject

/-- An expression with what trails behind it. -/
def withTrailers (rules : Rules) (subject : Node) : Reader Node := do
  trailers rules ((← get).length + 1) subject

/-! ## Atoms -/

/-- A field of a struct expression, or its rest. -/
def fieldValue (rules : Rules) : Reader Node := do
  if ← sign? ".." then
    if ← atEnd then return .range none false none
    let rest ← rules.expression true
    if ← atEnd then return .range none false (some rest) else failure
  let attributes ← outerAttributes rules
  let (name, numbered) ←
    match ← get with
    | .literal text :: rest =>
      match componentNumber? text.toList with
      | some name => set rest; pure (name, true)
      | none => failure
    | _ => pure (← identifier, false)
  if numbered || startsSign ":" (← get) then
    sign ":"
    return withAttributes attributes
      (.typed (.verbatim [Token.name name]) (← rules.expression true))
  else return withAttributes attributes (.path false [.segment name none])

/-- A path, a macro or a struct expression. -/
def pathExpression (rules : Rules) (structs : Bool) : Reader Node := do
  let path ← projectedPath rules true
  let tokens ← get
  if startsSign "!" tokens && !startsSign "!=" tokens && isPlain path then
    sign "!"
    let (bracket, body) ← anyGroup
    return .macroCall path none bracket body
  else if structs && startsGroup .curly tokens then
    let (items, comma) ← inside .curly (listed (fieldValue rules))
    return .fields path items comma
  else return path

/-- An expression in round brackets, or a tuple. -/
def roundExpression (rules : Rules) : Reader Node :=
  inside .round do
    match ← listed (rules.expression true) with
    | ([item], false) => return .paren item
    | (items, comma) => return .tuple items comma

/-- An array of items, or of one item repeated. -/
def squareExpression (rules : Rules) : Reader Node :=
  inside .square do
    if ← atEnd then return .list [] false
    let first ← rules.expression true
    if ← sign? ";" then return .repeated first (← rules.expression true)
    if ← atEnd then return .list [first] false
    sign ","
    let (rest, comma) ← listed (rules.expression true)
    return .list (first :: rest) (comma || rest.isEmpty)

/-- A parameter of a closure. -/
def closureParameter (rules : Rules) : Reader Node := do
  let attributes ← outerAttributes rules
  let pattern ← rules.pattern
  if ← sign? ":" then
    return withAttributes attributes (.typed pattern (← rules.type true))
  else return withAttributes attributes pattern

/-- A closure. -/
def closure (rules : Rules) (structs : Bool) : Reader Node := do
  let lifetimes ← forLifetimes? rules
  let constness ← optionalWord "const"
  let movability ← optionalWord "static"
  let asynchrony ← optionalWord "async"
  let capturing ← optionalWord "move"
  let words := constness ++ movability ++ asynchrony ++ capturing
  sign "|"
  let (inputs, comma) ← listedUntil (startsSign "|") (closureParameter rules)
  sign "|"
  if ← sign? "->" then
    let output ← rules.type true
    return .closure lifetimes words inputs comma (some output) (← blockOf rules [])
  else return .closure lifetimes words inputs comma none (← rules.expression structs)

/-- Whether a closure with bound lifetimes comes next. -/
def startsForClosure (tokens : List Token) : Bool :=
  startsWord "for" tokens && startsSign "<" (tokens.drop 1) &&
    (startsLifetime (tokens.drop 2) || startsSign ">" (tokens.drop 2))

/-- Whether a closure comes next. -/
def startsClosure (tokens : List Token) : Bool :=
  let after := tokens.drop 1
  startsSign "|" tokens || startsWord "move" tokens || startsForClosure tokens ||
    (startsWord "const" tokens && !startsGroup .curly after) || startsWord "static" tokens ||
    (startsWord "async" tokens && (startsSign "|" after || startsWord "move" after))

/-- Whether a block behind `async` comes next. -/
def startsAsyncBlock (tokens : List Token) : Bool :=
  let after := tokens.drop 1
  startsWord "async" tokens &&
    (startsGroup .curly after ||
      (startsWord "move" after && startsGroup .curly (after.drop 1)))

/-- A chain of conditionals, at most `bound` of them. -/
def conditionalBelow (rules : Rules) : Nat → Reader Node
  | 0 => failure
  | bound + 1 => do
    word "if"
    let condition ← rules.expression false
    let body ← blockOf rules []
    if ← word? "else" then
      if startsWord "if" (← get) then
        return .conditional condition body (some (← conditionalBelow rules bound))
      else return .conditional condition body (some (← blockOf rules []))
    else return .conditional condition body none

/-- A conditional. -/
def conditional (rules : Rules) : Reader Node := do
  conditionalBelow rules ((← get).length + 1)

/-- A loop over items. -/
def forLoop (rules : Rules) : Reader Node := do
  word "for"
  let pattern ← patternChoice rules
  word "in"
  let subject ← rules.expression false
  return .forLoop pattern subject (← blockOf rules [])

/-- A loop under a condition. -/
def whileLoop (rules : Rules) : Reader Node := do
  word "while"
  let condition ← rules.expression false
  return .whileLoop condition (← blockOf rules [])

/-- A loop without end. -/
def forever (rules : Rules) : Reader Node := do
  word "loop"
  return .forever (← blockOf rules [])

/-- A loop or block behind its label. -/
def labeled (rules : Rules) : Reader Node := do
  let label ← lifetime
  sign ":"
  let tokens ← get
  let subject ←
    if startsWord "while" tokens then whileLoop rules
    else if startsWord "for" tokens then forLoop rules
    else if startsWord "loop" tokens then forever rules
    else blockOf rules []
  return .labeled label subject

/-- A jump with an optional value. -/
def jumpWithValue (rules : Rules) : Reader Node := do
  let text ← anyWord
  if startsExpression (← get) then return .jump text none (some (← rules.expression true))
  else return .jump text none none

/-- A jump out of a loop. -/
def breakJump (rules : Rules) (structs : Bool) : Reader Node := do
  word "break"
  let label ← lifetime?
  let tokens ← get
  if label.isSome && startsSign ":" tokens then failure
  if startsExpression tokens && (structs || !startsGroup .curly tokens) then
    return .jump "break" label (some (← rules.expression true))
  else return .jump "break" label none

/-- The words that start an expression of their own form. -/
def startsPathExpression (tokens : List Token) : Bool :=
  startsPathWord tokens || startsSign "::" tokens || startsSign "<" tokens ||
    (startsWord "try" tokens &&
      (startsSign "!" (tokens.drop 1) || startsSign "::" (tokens.drop 1)))

/-! ## Operators -/

/-- The infix operator that comes next, with its precedence. -/
def operator? (tokens : List Token) : Option (String × Nat) :=
  Precedence.operators.find? fun (text, _) => startsSign text tokens

/-- Whether an assignment comes next. -/
def startsAssignment (tokens : List Token) : Bool :=
  startsSign "=" tokens && !startsSign "=>" tokens

/-- The precedence of what comes next. -/
def nextPrecedence (tokens : List Token) : Nat :=
  match operator? tokens with
  | some (_, precedence) => precedence
  | none =>
    if startsAssignment tokens then Precedence.assign
    else if startsSign ".." tokens then Precedence.range
    else if startsWord "as" tokens then Precedence.cast
    else Precedence.jump

/-- Whether a range without end stops here. -/
def endsRange (structs : Bool) (tokens : List Token) : Bool :=
  tokens.isEmpty || startsDot tokens || (!structs && startsGroup .curly tokens) ||
    [",", ";", "?", "=>", "=", "+", "/", "%", "^", ">", "<=", "!=", "-=", "*=", "&=", "|=",
      "<<="].any (fun text => startsSign text tokens) || startsWord "as" tokens

/-- The dots of a range; the answer tells whether its end belongs to it. -/
def rangeDots : Reader Bool := do
  if startsSign "..." (← get) then failure
  if ← sign? "..=" then return true
  sign ".."
  return false

/-- Whether something comes next that cannot trail behind a conversion. -/
def trailsCast (tokens : List Token) : Bool :=
  startsDot tokens || startsSign "?" tokens || startsGroup .square tokens ||
    startsGroup .round tokens

/-- Whether the expression is a comparison. -/
def isComparison : Node → Bool
  | .binary text _ _ => Precedence.ofOperator text == Precedence.compare
  | _ => false

/-- What a reader of operands gives: how far the prefix operators and the atom go. -/
abbrev Operand := Bool → Reader Node

mutual

/-- The infix operators behind `left` that bind at least as tightly as `base`. -/
def climb (rules : Rules) (operand : Operand) (structs : Bool) :
    Nat → Nat → Node → Reader Node
  | 0, _, _ => failure
  | bound + 1, base, left => do
    let tokens ← get
    if left.isRange then return left
    match operator? tokens with
    | some (text, precedence) =>
      if precedence < base then return left
      if precedence == Precedence.compare && isComparison left then failure
      sign text
      let right ← rightOperand rules operand structs bound precedence
      climb rules operand structs bound base (.binary text left right)
    | none =>
      if base ≤ Precedence.assign && startsAssignment tokens then
        sign "="
        let right ← rightOperand rules operand structs bound Precedence.assign
        climb rules operand structs bound base (.binary "=" left right)
      else if base ≤ Precedence.range && startsSign ".." tokens then
        let closed ← rangeDots
        let stop ← rangeEnd rules operand structs bound closed
        climb rules operand structs bound base (.range (some left) closed stop)
      else if base ≤ Precedence.cast && startsWord "as" tokens then
        word "as"
        let type ← rules.type false
        if trailsCast (← get) then failure
        climb rules operand structs bound base (.cast left type)
      else return left

/-- The operand behind an infix operator of this precedence. -/
def rightOperand (rules : Rules) (operand : Operand) (structs : Bool) :
    Nat → Nat → Reader Node
  | 0, _ => failure
  | bound + 1, precedence => do
    rightOperandFrom rules operand structs bound precedence (← operand structs)

/-- The operand that starts with `right` behind an infix operator of this precedence. -/
def rightOperandFrom (rules : Rules) (operand : Operand) (structs : Bool) :
    Nat → Nat → Node → Reader Node
  | 0, _, _ => failure
  | bound + 1, precedence, right => do
    let tokens ← get
    let following := nextPrecedence tokens
    if precedence < following ||
        (following == precedence && precedence == Precedence.assign) then
      let longer ← climb rules operand structs bound following right
      if (← get).length == tokens.length then return longer
      rightOperandFrom rules operand structs bound precedence longer
    else return right

/-- The end of a range. -/
def rangeEnd (rules : Rules) (operand : Operand) (structs : Bool) :
    Nat → Bool → Reader (Option Node)
  | 0, _ => failure
  | bound + 1, closed => do
    if !closed && endsRange structs (← get) then return none
    else return some (← rightOperand rules operand structs bound Precedence.range)

end

/-- How many steps the operators of a sequence can take. -/
def operatorBound (tokens : List Token) : Nat :=
  4 * tokens.length + 4

/-! ## Atoms and prefix operators -/

/-- A pattern as a condition. -/
def letCondition (rules : Rules) (operand : Operand) (structs : Bool) : Reader Node := do
  word "let"
  let pattern ← patternChoice rules
  sign "="
  let first ← operand structs
  let subject ← climb rules operand structs (operatorBound (← get)) Precedence.compare first
  return .letCondition pattern subject

/-- One case of a choice. -/
def choiceArm (rules : Rules) : Reader Node := do
  let attributes ← outerAttributes rules
  let pattern ← patternChoice rules
  let guard ← if ← word? "if" then some <$> rules.expression true else pure none
  sign "=>"
  let body ← rules.boundary
  if body.endsArm || (← atEnd) then
    return withAttributes attributes (.arm pattern guard body (← sign? ","))
  else
    sign ","
    return withAttributes attributes (.arm pattern guard body true)

/-- A choice by patterns. -/
def choice (rules : Rules) : Reader Node := do
  word "match"
  let subject ← rules.expression false
  let arms ← inside .curly do
    let attributes ← innerAttributes rules
    return attributes ++ (← many (fun ts => !ts.isEmpty) (choiceArm rules))
  return .choice subject arms

/-- An operation that only the compiler offers, kept as its tokens. -/
def builtinOperation : Reader Node := do
  let operation : Reader (Bracket × List Token) := do
    word "builtin"
    sign "#"
    let _ ← identifier
    anyGroup
  let tokens ← taken operation
  match tokens.getLast? with
  | some (.group .round _) => return .verbatim tokens
  | _ => failure

/-- An atom; the reader of operands serves the forms that end in one. -/
def atom (rules : Rules) (operand : Operand) (structs : Bool) : Reader Node := do
  let tokens ← get
  let after := tokens.drop 1
  if startsLiteral tokens then literal
  else if startsAsyncBlock tokens then
    word "async"
    let capturing ← optionalWord "move"
    blockOf rules ("async" :: capturing)
  else if startsWord "try" tokens && startsGroup .curly after then
    word "try"
    blockOf rules ["try"]
  else if startsClosure tokens then closure rules structs
  else if startsWord "builtin" tokens && startsSign "#" after then builtinOperation
  else if startsPathExpression tokens then pathExpression rules structs
  else if startsGroup .round tokens then roundExpression rules
  else if startsWord "break" tokens then breakJump rules structs
  else if startsWord "continue" tokens then
    word "continue"
    return .jump "continue" (← lifetime?) none
  else if startsWordOf ["return", "yield"] tokens then jumpWithValue rules
  else if startsWord "become" tokens then
    word "become"
    return .jump "become" none (some (← rules.expression true))
  else if startsGroup .square tokens then squareExpression rules
  else if startsWord "let" tokens then letCondition rules operand structs
  else if startsWord "if" tokens then conditional rules
  else if startsWord "while" tokens then whileLoop rules
  else if startsWord "for" tokens then forLoop rules
  else if startsWord "loop" tokens then forever rules
  else if startsWord "match" tokens then choice rules
  else if startsWordOf ["unsafe", "const"] tokens then
    let text ← anyWord
    blockOf rules [text]
  else if startsGroup .curly tokens then blockOf rules []
  else if startsSign ".." tokens then
    let closed ← rangeDots
    return .range none closed (← rangeEnd rules operand structs (operatorBound tokens) closed)
  else if startsWord "_" tokens then
    word "_"
    return .wild
  else if startsLifetime tokens then labeled rules
  else failure

/-- An atom with its attributes and what trails behind it. -/
def trailed (rules : Rules) (operand : Operand) (attributes : List Node) (structs : Bool) :
    Reader Node := do
  let subject ← withTrailers rules (← atom rules operand structs)
  if !attributes.isEmpty && subject.isRange then failure
  return withAttributes attributes subject

/-- The words behind the `&` of a reference. -/
def referenceWords : Reader (List String) := do
  let tokens ← get
  if startsWord "raw" tokens && startsWordOf ["mut", "const"] (tokens.drop 1) then
    let first ← anyWord
    let second ← anyWord
    return [first, second]
  else optionalWord "mut"

/-- Prefix operators, at most `bound` of them, and the atom behind them. -/
def operandBelow (rules : Rules) : Nat → Bool → Reader Node
  | 0, _ => failure
  | bound + 1, structs => do
    let attributes ← expressionAttributes rules
    let tokens ← get
    if startsSign "&" tokens then
      sign "&"
      let words ← referenceWords
      let subject ← operandBelow rules bound structs
      return withAttributes attributes (.reference none words subject)
    else
      match ["*", "!", "-"].find? fun text => startsSign text tokens with
      | some text =>
        sign text
        let subject ← operandBelow rules bound structs
        return withAttributes attributes (.unary text subject)
      | none => trailed rules (operandBelow rules bound) attributes structs

/-- An operand: prefix operators, an atom and what trails behind it. -/
def operand (rules : Rules) (structs : Bool) : Reader Node := do
  operandBelow rules ((← get).length + 1) structs

/-! ## Whole expressions -/

/-- The infix operators behind `left`. -/
def climbAll (rules : Rules) (structs : Bool) (left : Node) : Reader Node := do
  climb rules (operand rules) structs (operatorBound (← get)) Precedence.jump left

/-- Whether an expression that ends with its block comes next. -/
def startsBlockLike (tokens : List Token) : Bool :=
  let after := tokens.drop 1
  startsWordOf ["if", "while", "loop", "match", "unsafe"] tokens ||
    (startsWord "for" tokens && !startsForClosure tokens) ||
    (startsWordOf ["try", "const"] tokens && startsGroup .curly after) ||
    startsGroup .curly tokens || startsLifetime tokens

/-- An expression that ends with its block, unless a member or a question mark follows. -/
def boundary (rules : Rules) : Reader Node := do
  let attributes ← expressionAttributes rules
  let tokens ← get
  if startsBlockLike tokens then
    let subject ← atom rules (operand rules) true
    let tokens ← get
    if startsDot tokens || startsSign "?" tokens then
      let trailed ← withTrailers rules subject
      climbAll rules true (withAttributes attributes trailed)
    else return withAttributes attributes subject
  else
    let first ← operand rules true
    climbAll rules true (withAttributes attributes first)

/-- An expression. -/
def expression (rules : Rules) (structs : Bool) : Reader Node := do
  climbAll rules structs (← operand rules structs)

end Slotwise.Code.Grammar
