import Slotwise.Code.Grammar.Basic
import Slotwise.Code.Node.Tokens
/-!
# Paths, attributes and bounds

The reading of paths with their arguments, of attributes, and of the bounds of types. Paths without
arguments are also read by themselves, as names of modules are.
-/

namespace Slotwise.Code.Grammar

open Reader

/-! ## Paths without arguments -/

/-- The segments of a path without arguments, at most `bound` of them. -/
def plainSegments : Nat → Reader (List Node)
  | 0 => failure
  | bound + 1 => do
    if startsPathWord (← get) then
      let name ← anyWord
      if ← sign? "::" then
        let rest ← plainSegments bound
        return .segment name none :: rest
      else return [.segment name none]
    else failure

/-- A path without arguments. -/
def plainPath : Reader Node := do
  let rooted ← sign? "::"
  return .path rooted (← plainSegments ((← get).length + 1))

/-- Whether no segment of the path has arguments. -/
def isPlain : Node → Bool
  | .path _ segments => segments.all fun
    | .segment _ none => true
    | _ => false
  | _ => false

/-! ## Attributes -/

/-- The body of an attribute after its path. -/
def metaAfter (rules : Rules) (path : Node) : Reader Node := do
  let tokens ← get
  match tokens with
  | .group .. :: _ =>
    let (bracket, body) ← anyGroup
    return .metaList path bracket body
  | _ =>
    if ← sign? "=" then
      match ← get with
      | .mark '#' _ :: .group .square _ :: _ => failure
      | _ => return .metaValue path (← rules.expression true)
    else return path

/-- The body of an attribute. -/
def metaBody (rules : Rules) : Reader Node := do
  if ← word? "unsafe" then metaAfter rules (.path false [.segment "unsafe" none])
  else metaAfter rules (← plainPath)

/-- An outer attribute. -/
def outerAttribute (rules : Rules) : Reader Node := do
  sign "#"
  return .attr false (← inside .square (metaBody rules))

/-- The outer attributes that come next. -/
def outerAttributes (rules : Rules) : Reader (List Node) :=
  many (startsSign "#") (outerAttribute rules)

/-- Whether an inner attribute comes next. -/
def startsInnerAttribute : List Token → Bool
  | .mark '#' _ :: .mark '!' _ :: .group .square _ :: _ => true
  | _ => false

/-- The inner attributes that come next. -/
def innerAttributes (rules : Rules) : Reader (List Node) :=
  many startsInnerAttribute do
    sign "#"
    sign "!"
    return .attr true (← inside .square (metaBody rules))

/-- What the attributes belong to, with the attributes if there are any. -/
def withAttributes (attributes : List Node) (subject : Node) : Node :=
  if attributes.isEmpty then subject else .attributed attributes subject

/-! ## Arguments -/

/-- The output after an arrow, if there is one; no bounds joined by `+` when `plus` is off. -/
def output? (rules : Rules) (plus : Bool) : Reader (Option Node) := do
  if ← sign? "->" then some <$> rules.type plus else return none

/-- The inputs and the output of a function trait. -/
def callable (rules : Rules) : Reader Node := do
  let (inputs, comma) ← inside .round (listed (rules.type true))
  return .callable inputs comma (← output? rules false)

/-- Whether the inputs of a function trait come next. -/
def startsCallable (tokens : List Token) : Bool :=
  startsGroup .round tokens || (startsSign "::" tokens && startsGroup .round (tokens.drop 2))

/-- The path with its last segment given arguments. -/
def withLastArguments (arguments : Node) : List Node → List Node
  | [] => []
  | [.segment name _] => [.segment name (some arguments)]
  | segment :: rest => segment :: withLastArguments arguments rest

/-- Whether the last segment has no arguments. -/
def lastIsPlain (segments : List Node) : Bool :=
  match segments.getLast? with
  | some (.segment _ none) => true
  | some (.segment _ (some (.angled _ [] _))) => true
  | _ => false

/-- The segments with the inputs and output of a function trait behind the last one, if they come
next. -/
def withCallable (rules : Rules) (segments : List Node) : Reader (List Node) := do
  if lastIsPlain segments && startsCallable (← get) then
    let _ ← sign? "::"
    return withLastArguments (← callable rules) segments
  else return segments

/-- A constant as an argument. -/
def constArgument (rules : Rules) : Reader Node := do
  let tokens ← get
  if startsLiteral tokens then literal
  else if startsIdentifier tokens then return .path false [.segment (← identifier) none]
  else
    let inner ← inside .curly do
      let attributes ← innerAttributes rules
      return attributes ++ (← rules.statements)
    return .block [] inner

/-- Lifetimes with their bounds, as declared between angle brackets. -/
def lifetimeParameter (rules : Rules) : Reader Node := do
  let attributes ← outerAttributes rules
  let name ← lifetime
  let bounds ←
    if ← sign? ":" then
      many startsLifetime do
        let bound ← lifetime
        if !(← next fun ts => startsSign "," ts || startsSign ">" ts || ts.isEmpty) then sign "+"
        return Node.lifetime bound
    else pure []
  return withAttributes attributes (.parameter (.lifetime name) bounds none)

/-- Lifetimes bound by `for`, if they come next. -/
def forLifetimes? (rules : Rules) : Reader (Option Node) := do
  if ← word? "for" then
    sign "<"
    let (lifetimes, comma) ← listedUntil (startsSign ">") (lifetimeParameter rules)
    sign ">"
    return some (.forLifetimes lifetimes comma)
  else return none

/-! ## Paths with arguments -/

/-- The bounds of an associated type. -/
def associatedBounds (rules : Rules) : Reader (List Node) :=
  many (fun ts => !(startsSign "," ts || startsSign ">" ts)) do
    let bound ← rules.bound false true
    if !(← next fun ts => startsSign "," ts || startsSign ">" ts) then sign "+"
    return bound

/-- One argument between angle brackets. -/
def argument (rules : Rules) : Reader Node := do
  let tokens ← get
  if startsLifetime tokens && !startsSign "+" (tokens.drop 1) then return .lifetime (← lifetime)
  if startsLiteral tokens || startsGroup .curly tokens then return ← constArgument rules
  let type ← rules.type true
  match type with
  | .path false [.segment _ (some (.callable ..))] => return type
  | .path false [.segment name arguments] =>
    if ← sign? "=" then
      if ← next (fun ts => startsLiteral ts || startsGroup .curly ts) then
        return .associated name arguments (← constArgument rules)
      else return .associated name arguments (← rules.type true)
    else if ← sign? ":" then return .constrained name arguments (← associatedBounds rules)
    else return type
  | _ => return type

/-- The arguments between angle brackets. -/
def angled (rules : Rules) (colons : Bool) : Reader Node := do
  sign "<"
  let (arguments, comma) ← listedUntil (startsSign ">") (argument rules)
  sign ">"
  return .angled colons arguments comma

/-- A segment of a path. In an expression, arguments stand behind a pair of colons. -/
def segment (rules : Rules) (inExpression : Bool) : Reader Node := do
  if startsWordOf ["super", "self", "crate", "try"] (← get) then
    return .segment (← anyWord) none
  let name ← if startsWord "Self" (← get) then anyWord else identifier
  let tokens ← get
  if !inExpression && startsSign "<" tokens && !startsSign "<=" tokens then
    return .segment name (some (← angled rules false))
  else if startsSign "::" tokens && startsSign "<" (tokens.drop 2) then
    sign "::"
    return .segment name (some (← angled rules true))
  else return .segment name none

/-- Whether another segment comes next. -/
def startsSegment (tokens : List Token) : Bool :=
  startsSign "::" tokens && !startsGroup .round (tokens.drop 2)

/-- A path. -/
def path (rules : Rules) (inExpression : Bool) : Reader Node := do
  let rooted ← sign? "::"
  let first ← segment rules inExpression
  let rest ← many startsSegment do
    sign "::"
    segment rules inExpression
  return .path rooted (first :: rest)

/-- A path that may start from a type. -/
def projectedPath (rules : Rules) (inExpression : Bool) : Reader Node := do
  if ← sign? "<" then
    let self ← rules.type true
    let asTrait ← if ← word? "as" then some <$> path rules false else pure none
    sign ">"
    sign "::"
    let first ← segment rules inExpression
    let rest ← many (startsSign "::") do
      sign "::"
      segment rules inExpression
    return .projected self asTrait (first :: rest)
  else path rules inExpression

/-! ## Bounds -/

/-- A trait as a bound, with its lifetimes and what stands for its arguments. -/
def traitBound (rules : Rules) (parens constant : Bool) : Reader Node := do
  let lifetimes ← forLifetimes? rules
  let tokens ← get
  if startsGroup .square tokens then
    if constant then
      inside .square (word "const")
      let path ← path rules false
      return .verbatim (.group .square [.word "const"] :: path.tokens)
    else failure
  else if startsWord "const" tokens then
    if constant then
      word "const"
      let path ← path rules false
      return .verbatim (.word "const" :: path.tokens)
    else failure
  else
    let maybe ← sign? "?"
    if maybe && lifetimes.isSome then failure
    match ← path rules false with
    | .path rooted segments =>
      return .bound parens maybe lifetimes (.path rooted (← withCallable rules segments))
    | _ => failure

/-- Lifetimes that a type captures. -/
def captures : Reader Node := do
  word "use"
  sign "<"
  let (arguments, comma) ← listedUntil (startsSign ">") do
    if startsLifetime (← get) then return Node.lifetime (← lifetime)
    else return Node.path false [.segment (← anyWord) none]
  sign ">"
  return .path false [.segment "use" (some (.angled false arguments comma))]

/-- One bound. -/
def singleBound (rules : Rules) (capturing constant : Bool) : Reader Node := do
  let tokens ← get
  if startsLifetime tokens then return .lifetime (← lifetime)
  else if startsWord "use" tokens then
    if capturing then captures else failure
  else if startsGroup .round tokens then inside .round (traitBound rules true constant)
  else traitBound rules false constant

/-- Whether what comes next can be a bound behind a `+`. -/
def startsBound (constant : Bool) (tokens : List Token) : Bool :=
  startsAnyWord tokens || startsSign "::" tokens || startsSign "?" tokens ||
    startsLifetime tokens || startsGroup .round tokens ||
    (constant && (startsGroup .square tokens || startsWord "const" tokens))

/-- The bounds behind a first one; the flag tells whether a `+` ends them. -/
def furtherBounds (rules : Rules) (capturing constant : Bool) : Nat → Reader (List Node × Bool)
  | 0 => failure
  | bound + 1 => do
    if ← sign? "+" then
      if startsBound constant (← get) then
        let first ← singleBound rules capturing constant
        let (rest, plus) ← furtherBounds rules capturing constant bound
        return (first :: rest, plus)
      else return ([], true)
    else return ([], false)

/-- Bounds joined by `+`, one alone when `plus` is off; the flag tells whether a `+` ends them. -/
def bounds (rules : Rules) (plus capturing constant : Bool) : Reader (List Node × Bool) := do
  let first ← singleBound rules capturing constant
  if plus then
    let (rest, trailing) ← furtherBounds rules capturing constant ((← get).length + 1)
    return (first :: rest, trailing)
  else return ([first], false)

/-- Whether a bound is more than a lifetime or captured lifetimes. -/
def isTraitBound : Node → Bool
  | .bound .. | .verbatim _ => true
  | _ => false

end Slotwise.Code.Grammar
