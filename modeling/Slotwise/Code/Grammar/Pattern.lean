import Slotwise.Code.Grammar.Type
/-!
# Reading patterns

Patterns in all their forms. Alternatives are allowed where a pattern is enclosed or stands by
itself; the reader of the rules takes one alternative.
-/

namespace Slotwise.Code.Grammar

open Reader

/-- Whether another alternative comes next. -/
def startsAlternative (tokens : List Token) : Bool :=
  startsSign "|" tokens && !startsSign "||" tokens && !startsSign "|=" tokens

/-- A pattern with its alternatives. -/
def patternChoice (rules : Rules) : Reader Node := do
  let leading ← sign? "|"
  let first ← rules.pattern
  if leading || startsAlternative (← get) then
    let rest ← many startsAlternative do
      sign "|"
      rules.pattern
    return .alternatives leading (first :: rest)
  else return first

/-- Whether a range in a pattern ends without a bound here. -/
def endsPatternRange (tokens : List Token) : Bool :=
  tokens.isEmpty || startsSign "|" tokens || startsSign "=" tokens ||
    (startsSign ":" tokens && !startsSign "::" tokens) || startsSign "," tokens ||
    startsSign ";" tokens || startsWord "if" tokens

/-- A block behind `const`. -/
def constBlock (rules : Rules) : Reader Node := do
  word "const"
  let body ← inside .curly do
    let attributes ← innerAttributes rules
    return attributes ++ (← rules.statements)
  return .block ["const"] body

/-- A bound of a range in a pattern. -/
def patternBound (rules : Rules) : Reader Node := do
  let tokens ← get
  if startsLiteral tokens then literal
  else if startsPathWord tokens || startsSign "::" tokens || startsSign "<" tokens then
    projectedPath rules true
  else if startsWord "const" tokens then constBlock rules
  else failure

/-- The dots of a range in a pattern; the answer tells whether the end belongs to it. -/
def patternDots : Reader Bool := do
  if ← sign? "..=" then return true
  else if ← sign? "..." then return true
  else
    sign ".."
    return false

/-- The range from `start` on. -/
def patternRange (rules : Rules) (start : Node) : Reader Node := do
  let closed ← patternDots
  if endsPatternRange (← get) then
    if closed then failure else return .range (some start) closed none
  else return .range (some start) closed (some (← patternBound rules))

/-- The name of a component: an identifier or an unsuffixed number. -/
def componentName : Reader String := do
  match ← get with
  | .literal text :: rest =>
    if text.toList.all Char.isDigit then
      set rest
      return text
    else failure
  | _ => identifier

/-- A field of a struct pattern. -/
def fieldPattern (rules : Rules) : Reader Node := do
  let attributes ← outerAttributes rules
  if ← next (startsSign "..") then
    sign ".."
    return withAttributes attributes (.range none false none)
  let words := (← optionalWord "ref") ++ (← optionalWord "mut")
  if words.isEmpty then
    let name ← componentName
    if isNumber name || startsSign ":" (← get) then
      sign ":"
      return withAttributes attributes
        (.typed (.verbatim [Token.name name]) (← patternChoice rules))
    else return withAttributes attributes (.capture [] name none)
  else return withAttributes attributes (.capture words (← identifier) none)

/-- Whether the field of a struct pattern is its rest. -/
def isRest : Node → Bool
  | .range none _ _ => true
  | .attributed _ (.range none _ _) => true
  | _ => false

/-- The fields of a struct pattern; the rest can only come last. -/
def fieldPatterns (rules : Rules) : Reader (List Node × Bool) := do
  let (items, comma) ← listed (fieldPattern rules)
  if items.dropLast.any isRest || (comma && (items.getLast?.map isRest).getD false) then failure
  return (items, comma)

/-- A pattern that starts with a path. -/
def pathPattern (rules : Rules) : Reader Node := do
  let path ← projectedPath rules true
  let tokens ← get
  if startsSign "!" tokens && !startsSign "!=" tokens && isPlain path then
    sign "!"
    let (bracket, body) ← anyGroup
    return .macroCall path none bracket body
  else if startsGroup .curly tokens then
    let (items, comma) ← inside .curly (fieldPatterns rules)
    return .fields path items comma
  else if startsGroup .round tokens then
    let (items, comma) ← inside .round (listed (patternChoice rules))
    return .call path items comma
  else if startsSign ".." tokens then patternRange rules path
  else return path

/-- Whether a pattern starts with a path rather than a variable here. -/
def startsPathPattern (tokens : List Token) : Bool :=
  let after := tokens.drop 1
  (startsIdentifier tokens &&
      (startsSign "::" after || startsSign "!" after || startsGroup .curly after ||
        startsGroup .round after || startsSign ".." after)) ||
    (startsWord "self" tokens && startsSign "::" after) ||
    startsSign "::" tokens || startsSign "<" tokens ||
    startsWordOf ["Self", "super", "crate"] tokens

/-- A variable with the pattern of its value. -/
def variablePattern (rules : Rules) : Reader Node := do
  let words := (← optionalWord "ref") ++ (← optionalWord "mut")
  let name ← if startsWord "self" (← get) then anyWord else identifier
  let pattern ← if ← sign? "@" then some <$> rules.pattern else pure none
  return .capture words name pattern

/-- One pattern in round brackets, or a tuple pattern. -/
def roundPattern (rules : Rules) : Reader Node :=
  inside .round do
    let (items, comma) ← listed (patternChoice rules)
    match items, comma with
    | [item], false => return if isRest item then .tuple [item] false else .paren item
    | items, comma => return .tuple items comma

/-- A pattern without alternatives. -/
def pattern (rules : Rules) : Reader Node := do
  let tokens ← get
  if startsPathPattern tokens then pathPattern rules
  else if startsWord "_" tokens then
    word "_"
    return .wild
  else if startsWord "box" tokens then
    word "box"
    return .verbatim (.word "box" :: (← rules.pattern).tokens)
  else if startsSign "-" tokens || startsLiteral tokens || startsWord "const" tokens then
    let start ← patternBound rules
    if startsSign ".." (← get) then patternRange rules start else return start
  else if startsWordOf ["ref", "mut", "self"] tokens || startsIdentifier tokens then
    variablePattern rules
  else if startsSign "&" tokens then
    sign "&"
    let words ← optionalWord "mut"
    return .reference none words (← rules.pattern)
  else if startsGroup .round tokens then roundPattern rules
  else if startsGroup .square tokens then
    let (items, comma) ← inside .square (listed (patternChoice rules))
    return .list items comma
  else if startsSign ".." tokens && !startsSign "..." tokens then
    let closed ← patternDots
    if endsPatternRange (← get) then
      if closed then failure else return .range none false none
    else return .range none closed (some (← patternBound rules))
  else failure

end Slotwise.Code.Grammar
