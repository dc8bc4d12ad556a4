import Slotwise.Code.Grammar.Path
/-!
# Reading types

Types in all their forms. Where a type stands behind `&`, `*` or `->`, bounds joined by `+` belong
to what is around it, so the reader takes a flag for them.
-/

namespace Slotwise.Code.Grammar

open Reader

/-- The form of a type whose first bound is read: without its own word, with all further bounds. -/
def boundedFrom (rules : Rules) (first : Node) : Reader Node := do
  let (rest, plus) ← furtherBounds rules false false ((← get).length + 1)
  return .bounded none (first :: rest) plus

/-- Bounds joined by `+` behind a parenthesized bound, each of them required. -/
def requiredBounds (rules : Rules) (first : Node) : Reader Node := do
  let rest ← many plusNext do
    sign "+"
    singleBound rules false false
  return .bounded none (first :: rest) false

/-- A type that consists of bounds alone. -/
def bareBounds (rules : Rules) : Reader Node := do
  let (items, plus) ← bounds rules true false false
  if items.any isTraitBound then return .bounded none items plus else failure

/-- The parenthesized type as a bound, if it is a path or a single bound. -/
def asParenthesizedBound? : Node → Option Node
  | .path rooted segments => some (.bound true false none (.path rooted segments))
  | .bounded none [.bound _ maybe lifetimes path] false => some (.bound true maybe lifetimes path)
  | .bounded none [other] false => some other
  | _ => none

/-- What stands between a pair of round brackets in a type. -/
inductive Enclosed where
  /-- A whole type. -/
  | whole (type : Node)
  /-- The first bound of several. -/
  | firstBound (bound : Node)
  /-- One type. -/
  | single (type : Node)

/-- The inside of a pair of round brackets in a type. -/
def enclosed (rules : Rules) : Reader Enclosed := do
  let tokens ← get
  if tokens.isEmpty then return .whole (.tuple [] false)
  if startsLifetime tokens then return .whole (.paren (← bareBounds rules))
  if startsSign "?" tokens then return .firstBound (← traitBound rules true false)
  let first ← rules.type true
  if ← atEnd then return .single first
  sign ","
  let (rest, comma) ← listed (rules.type true)
  return .whole (.tuple (first :: rest) (comma || rest.isEmpty))

/-- A type in round brackets, or bounds of which the first is in brackets. -/
def roundType (rules : Rules) (plus : Bool) : Reader Node := do
  match ← inside .round (enclosed rules) with
  | .whole type => return type
  | .firstBound bound => requiredBounds rules bound
  | .single type =>
    match asParenthesizedBound? type with
    | some bound =>
      if plus && plusNext (← get) then requiredBounds rules bound else return .paren type
    | none => return .paren type

/-- Whether a name for a parameter of a function pointer comes next; only the first parameter can be
the receiver. -/
def startsParameterName (first : Bool) (tokens : List Token) : Bool :=
  (startsIdentifier tokens || startsWord "_" tokens || (first && startsWord "self" tokens)) &&
    startsSign ":" (tokens.drop 1) && !startsSign "::" (tokens.drop 1)

/-- A mutable receiver as the parameter of a function pointer. -/
def mutableReceiver (rules : Rules) : Reader Node := do
  word "mut"
  word "self"
  let self := Node.capture ["mut"] "self" none
  if ← sign? ":" then return .typed self (← rules.type true) else return self

/-- A parameter of a function pointer; the flag tells whether it stands for any number of them. -/
def pointerParameter (rules : Rules) (first : Bool) : Reader (Node × Bool) := do
  let attributes ← outerAttributes rules
  let tokens ← get
  if startsSign "..." tokens then
    sign "..."
    return (withAttributes attributes (.verbatim (Token.operator "...")), true)
  else if first && startsWord "mut" tokens then
    return (withAttributes attributes (← mutableReceiver rules), false)
  else if startsParameterName first tokens then
    let name := Node.path false [.segment (← anyWord) none]
    sign ":"
    if ← sign? "..." then
      return (withAttributes attributes (.typed name (.verbatim (Token.operator "..."))), true)
    return (withAttributes attributes (.typed name (← rules.type true)), false)
  else return (withAttributes attributes (← rules.type true), false)

/-- The parameters of a function pointer up to the end, at most `bound` of them. One that stands for
any number of parameters is the last. -/
def pointerParametersBelow (rules : Rules) : Nat → Bool → Reader (List Node × Bool)
  | 0, _ => failure
  | bound + 1, first => do
    if ← atEnd then return ([], false)
    let (parameter, variadic) ← pointerParameter rules first
    if ← atEnd then return ([parameter], false)
    sign ","
    if ← atEnd then return ([parameter], true)
    if variadic then failure
    let (others, comma) ← pointerParametersBelow rules bound false
    return (parameter :: others, comma)

/-- The parameters of a function pointer up to the end. -/
def pointerParameters (rules : Rules) : Reader (List Node × Bool) := do
  pointerParametersBelow rules ((← get).length + 1) true

/-- Whether the literal is a string of characters, raw or with escapes. -/
def isString (literal : String) : Bool :=
  match literal.toList.head? with
  | some '"' | some 'r' => true
  | _ => false

/-- The words and the calling convention before a function. -/
def convention : Reader (List Token) := do
  if ← word? "extern" then
    match ← get with
    | .literal text :: rest =>
      if isString text then
        set rest
        return [.word "extern", .literal text]
      else failure
    | _ => return [.word "extern"]
  else return []

/-- A function pointer type behind its bound lifetimes. -/
def fnPointer (rules : Rules) (lifetimes : Option Node) : Reader Node := do
  let words := Token.words (← optionalWord "unsafe")
  let abi ← convention
  word "fn"
  let (inputs, comma) ← inside .round (pointerParameters rules)
  return .fnPointer lifetimes (words ++ abi) inputs comma (← output? rules false)

/-- A type that starts with a path: the path itself, a macro, or bounds. -/
def pathType (rules : Rules) (plus : Bool) (lifetimes : Option Node) : Reader Node := do
  match ← projectedPath rules false with
  | .projected self asTrait segments =>
    return .projected self asTrait (← withCallable rules segments)
  | .path rooted segments =>
    let segments ← withCallable rules segments
    let path := Node.path rooted segments
    let tokens ← get
    if startsSign "!" tokens && !startsSign "!=" tokens && isPlain path then
      sign "!"
      let (bracket, body) ← anyGroup
      return .macroCall path none bracket body
    else if lifetimes.isSome || (plus && plusNext tokens) then
      let first := Node.bound false false lifetimes path
      if plus then boundedFrom rules first else return .bounded none [first] false
    else return path
  | _ => failure

/-- A type between square brackets. -/
def squareType (rules : Rules) : Reader Node :=
  inside .square do
    let item ← rules.type true
    if ← sign? ";" then return .repeated item (← rules.expression true)
    else return .list [item] false

/-- A type behind `dyn`. -/
def dynType (rules : Rules) (plus : Bool) : Reader Node := do
  word "dyn"
  let star ← sign? "*"
  let (items, trailing) ← bounds rules plus false false
  if !items.any isTraitBound then failure
  let type := Node.bounded (some "dyn") items trailing
  if star then
    return .verbatim (.word "dyn" :: .mark '*' false ::
      (Node.bounded none items trailing).tokens)
  else return type

/-- A type behind `impl`. -/
def implType (rules : Rules) (plus : Bool) : Reader Node := do
  word "impl"
  let (items, trailing) ← bounds rules plus true true
  if items.any isTraitBound then return .bounded (some "impl") items trailing else failure

/-- Whether a type with lifetimes bound by `for` can go on here. -/
def startsForBody (tokens : List Token) : Bool :=
  startsPathWord tokens || startsWordOf ["fn", "unsafe", "extern"] tokens

/-- A type. -/
def type (rules : Rules) (plus : Bool) : Reader Node := do
  let lifetimes ← forLifetimes? rules
  let tokens ← get
  if lifetimes.isSome && !startsForBody tokens then failure
  if startsGroup .round tokens then roundType rules plus
  else if startsWordOf ["fn", "unsafe", "extern"] tokens then fnPointer rules lifetimes
  else if startsPathWord tokens || startsSign "::" tokens || startsSign "<" tokens then
    pathType rules plus lifetimes
  else if startsWord "dyn" tokens then dynType rules plus
  else if startsGroup .square tokens then squareType rules
  else if startsSign "*" tokens then
    sign "*"
    let mutability ← if startsWordOf ["const", "mut"] (← get) then anyWord else failure
    return .pointer mutability (← rules.type false)
  else if startsSign "&" tokens then
    sign "&"
    let lifetime ← lifetime?
    let words ← optionalWord "mut"
    return .reference lifetime words (← rules.type false)
  else if startsSign "!" tokens then
    sign "!"
    return .never
  else if startsWord "impl" tokens then implType rules plus
  else if startsWord "_" tokens then
    word "_"
    return .wild
  else if startsLifetime tokens then bareBounds rules
  else failure

end Slotwise.Code.Grammar
