import Slotwise.Code.Grammar.Expression
/-!
# Reading items

Declarations with their visibility, type parameters and conditions: functions, structs, enumerations,
implementations, traits, aliases, constants, imports, modules and macros.
-/

namespace Slotwise.Code.Grammar

open Reader

/-! ## Visibility and type parameters -/

/-- The visibility that comes next, empty when there is none. -/
def visibility : Reader (List Token) := do
  if ← word? "pub" then
    match ← get with
    | .group .round [.word w] :: rest =>
      if ["crate", "self", "super"].contains w then
        set rest
        return [.word "pub", .group .round [.word w]]
      else return [.word "pub"]
    | .group .round (.word "in" :: path) :: rest =>
      match plainPath path with
      | some (_, []) =>
        set rest
        return [.word "pub", .group .round (.word "in" :: path)]
      | _ => failure
    | _ => return [.word "pub"]
  else return []

/-- What the visibility belongs to, with the visibility if there is one. -/
def withVisibility (tokens : List Token) (subject : Node) : Node :=
  if tokens.isEmpty then subject else .visible tokens subject

/-- The bounds up to where the predicate holds. -/
def boundsUntil (rules : Rules) (stop : List Token → Bool) : Reader (List Node) :=
  many (fun ts => !stop ts) do
    let bound ← singleBound rules false true
    if !stop (← get) then sign "+"
    return bound

/-- Whether the bounds of a type parameter end here. -/
def endsParameterBounds (tokens : List Token) : Bool :=
  startsSign "," tokens || startsSign ">" tokens || startsSign "=" tokens

/-- A parameter between angle brackets. -/
def genericParameter (rules : Rules) : Reader Node := do
  let attributes ← outerAttributes rules
  let tokens ← get
  if startsLifetime tokens then
    return withAttributes attributes (← lifetimeParameter rules)
  else if startsWord "const" tokens then
    word "const"
    let name ← identifier
    sign ":"
    let type ← rules.type true
    let fallback ← if ← sign? "=" then some <$> constArgument rules else pure none
    return withAttributes attributes (.constParameter name type fallback)
  else
    let name ← identifier
    let bounds ← if ← sign? ":" then boundsUntil rules endsParameterBounds else pure []
    let fallback ← if ← sign? "=" then some <$> rules.type true else pure none
    return withAttributes attributes
      (.parameter (.path false [.segment name none]) bounds fallback)

/-- The type parameters, if there are any. -/
def generics? (rules : Rules) : Reader (Option Node) := do
  if ← sign? "<" then
    let (parameters, comma) ← listedUntil (startsSign ">") (genericParameter rules)
    sign ">"
    return some (.generics parameters comma)
  else return none

/-- Whether the conditions on type parameters end here. -/
def endsClause (tokens : List Token) : Bool :=
  tokens.isEmpty || startsGroup .curly tokens || startsSign "," tokens ||
    startsSign ";" tokens || (startsSign ":" tokens && !startsSign "::" tokens) ||
    startsSign "=" tokens

/-- A condition on a type or lifetime. -/
def predicate (rules : Rules) : Reader Node := do
  let tokens ← get
  if startsLifetime tokens && startsSign ":" (tokens.drop 1) then
    let name ← lifetime
    sign ":"
    return .predicate none (.lifetime name) (← boundsUntil rules endsClause)
  else
    let lifetimes ← forLifetimes? rules
    let subject ← rules.type true
    sign ":"
    return .predicate lifetimes subject (← boundsUntil rules endsClause)

/-- The conditions on type parameters, at most `bound` of them. -/
def predicatesBelow (rules : Rules) : Nat → Reader (List Node × Bool)
  | 0 => failure
  | bound + 1 => do
    if endsClause (← get) then return ([], false)
    let first ← predicate rules
    if ← sign? "," then
      if endsClause (← get) then return ([first], true)
      let (rest, comma) ← predicatesBelow rules bound
      return (first :: rest, comma)
    else return ([first], false)

/-- The conditions on type parameters, if there are any. -/
def whereClause? (rules : Rules) : Reader (Option Node) := do
  if ← word? "where" then
    let (predicates, comma) ← predicatesBelow rules ((← get).length + 1)
    return some (.whereClause predicates comma)
  else return none

/-! ## Functions -/

/-- The receiver of a method. -/
def receiver (rules : Rules) : Reader Node := do
  if ← sign? "&" then
    let lifetime ← lifetime?
    let words ← optionalWord "mut"
    word "self"
    return .reference lifetime words (.path false [.segment "self" none])
  else
    let words ← optionalWord "mut"
    word "self"
    let self := if words.isEmpty then Node.path false [.segment "self" none]
      else .capture words "self" none
    if startsSign "::" (← get) then failure
    if ← sign? ":" then return .typed self (← rules.type true)
    else return self

/-- A parameter of a function. -/
def functionInput (rules : Rules) : Reader Node := do
  let attributes ← outerAttributes rules
  let typed : Reader Node := do
    let pattern ← rules.pattern
    sign ":"
    return .typed pattern (← rules.type true)
  return withAttributes attributes (← receiver rules <|> typed)

/-- The words before a function. -/
def functionQualifiers : Reader (List Token) := do
  let constness ← optionalWord "const"
  let asynchrony ← optionalWord "async"
  let safety ← optionalWord "unsafe"
  let abi ← convention
  return Token.words (constness ++ asynchrony ++ safety) ++ abi

/-- Whether a function comes next. -/
def startsFunction (tokens : List Token) : Bool :=
  match functionQualifiers tokens with
  | some (_, rest) => startsWord "fn" rest
  | none => false

/-- A function; without a body only where `bodiless` allows it. -/
def function (rules : Rules) (bodiless : Bool) : Reader Node := do
  let qualifiers ← functionQualifiers
  word "fn"
  let name ← identifier
  let generics ← generics? rules
  let (inputs, comma) ← inside .round (listed (functionInput rules))
  let output ← output? rules true
  let clause ← whereClause? rules
  if bodiless && startsSign ";" (← get) then
    sign ";"
    return .function qualifiers name generics inputs comma output clause none
  else
    return .function qualifiers name generics inputs comma output clause
      (some (← blockOf rules []))

/-! ## Types -/

/-- A field with a name. -/
def namedField (rules : Rules) : Reader Node := do
  let attributes ← outerAttributes rules
  let visible ← visibility
  let name ← identifier
  sign ":"
  let type ← rules.type true
  return withAttributes attributes
    (withVisibility visible (.typed (.path false [.segment name none]) type))

/-- A field with a number. -/
def numberedField (rules : Rules) : Reader Node := do
  let attributes ← outerAttributes rules
  let visible ← visibility
  return withAttributes attributes (withVisibility visible (← rules.type true))

/-- A struct or union behind its word. -/
def structItem (rules : Rules) (text : String) : Reader Node := do
  let name ← identifier
  let generics ← generics? rules
  let clause ← whereClause? rules
  let tokens ← get
  if startsGroup .curly tokens then
    let (fields, comma) ← inside .curly (listed (namedField rules))
    return .fieldStruct text name generics clause fields comma
  else if clause.isNone && startsGroup .round tokens then
    let (fields, comma) ← inside .round (listed (numberedField rules))
    let clause ← whereClause? rules
    sign ";"
    return .tupleStruct name generics fields comma clause
  else
    sign ";"
    return .unitStruct name generics clause

/-- A variant of an enumeration. -/
def variant (rules : Rules) : Reader Node := do
  let attributes ← outerAttributes rules
  let _ ← visibility
  let name ← identifier
  let value : Reader (Option Node) := do
    if ← sign? "=" then some <$> rules.expression true else pure none
  let tokens ← get
  if startsGroup .curly tokens then
    let (fields, comma) ← inside .curly (listed (namedField rules))
    return withAttributes attributes (.fieldVariant name fields comma (← value))
  else if startsGroup .round tokens then
    let (fields, comma) ← inside .round (listed (numberedField rules))
    return withAttributes attributes (.tupleVariant name fields comma (← value))
  else return withAttributes attributes (.unitVariant name (← value))

/-- An enumeration behind its word. -/
def enumItem (rules : Rules) : Reader Node := do
  let name ← identifier
  let generics ← generics? rules
  let clause ← whereClause? rules
  let (variants, comma) ← inside .curly (listed (variant rules))
  return .enumeration name generics clause variants comma

/-- A type alias behind its word. -/
def aliasItem (rules : Rules) : Reader Node := do
  let name ← identifier
  let generics ← generics? rules
  let bounds ←
    if ← sign? ":" then
      boundsUntil rules fun ts =>
        startsWord "where" ts || startsSign "=" ts || startsSign ";" ts
    else pure []
  let clause ← whereClause? rules
  let type ← if ← sign? "=" then some <$> rules.type true else pure none
  let clause ← if clause.isSome then pure clause else whereClause? rules
  sign ";"
  return .typeAlias name generics bounds clause type

/-- A constant or static variable behind its words. -/
def constantItem (rules : Rules) (words : List String) : Reader Node := do
  let name ← if startsWord "_" (← get) then anyWord else identifier
  sign ":"
  let type ← rules.type true
  let value ← if ← sign? "=" then some <$> rules.expression true else pure none
  sign ";"
  return .constItem words name type value

/-! ## Imports, modules and macros -/

/-- What is imported, at most `bound` steps deep. -/
def useTreeBelow : Nat → Reader Node
  | 0 => failure
  | bound + 1 => do
    let tokens ← get
    if startsSign "*" tokens then
      sign "*"
      return .useAll
    else if startsGroup .curly tokens then
      let (trees, comma) ← inside .curly (listed (useTreeBelow bound))
      return .useGroup trees comma
    else if startsIdentifier tokens || startsWordOf ["self", "super", "crate", "try"] tokens then
      let name ← anyWord
      if ← sign? "::" then return .useStep name (some (← useTreeBelow bound))
      else if ← word? "as" then
        let other ← if startsWord "_" (← get) then anyWord else identifier
        return .useAs name other
      else return .useStep name none
    else failure

/-- An import behind its word. -/
def useItem : Reader Node := do
  let rooted ← sign? "::"
  let tree ← useTreeBelow (Token.sizeAll (← get) + 1)
  sign ";"
  return .useItem rooted tree

/-- The items up to the end, with inner attributes before them. -/
def itemsToEnd (rules : Rules) : Reader (List Node) := do
  let attributes ← innerAttributes rules
  return attributes ++ (← many (fun ts => !ts.isEmpty) do
    let attributes ← outerAttributes rules
    return withAttributes attributes (← rules.item))

/-- A module behind its word. -/
def moduleItem (rules : Rules) : Reader Node := do
  let name ← if startsWord "try" (← get) then anyWord else identifier
  if ← sign? ";" then return .moduleItem name none
  else return .moduleItem name (some (← inside .curly (itemsToEnd rules)))

/-- The call of a macro as an item. -/
def macroItem : Reader Node := do
  let path ← plainPath
  sign "!"
  let name ← if startsIdentifier (← get) then some <$> anyWord else pure none
  let (bracket, body) ← anyGroup
  if bracket == .curly then return .macroCall path name bracket body
  else
    sign ";"
    return .terminated (.macroCall path name bracket body)

/-! ## Implementations and traits -/

/-- An item of an implementation or trait. -/
def memberItem (rules : Rules) (bodiless : Bool) : Reader Node := do
  let attributes ← outerAttributes rules
  let visible ← visibility
  let tokens ← get
  let subject ←
    if startsFunction tokens then function rules bodiless
    else if startsWord "const" tokens then
      word "const"
      constantItem rules ["const"]
    else if startsWord "type" tokens then
      word "type"
      aliasItem rules
    else macroItem
  return withAttributes attributes (withVisibility visible subject)

/-- The items of an implementation or trait. -/
def memberItems (rules : Rules) (bodiless : Bool) : Reader (List Node) :=
  inside .curly do
    let attributes ← innerAttributes rules
    return attributes ++ (← many (fun ts => !ts.isEmpty) (memberItem rules bodiless))

/-- Whether type parameters follow `impl`, rather than a type in angle brackets. -/
def startsImplGenerics (tokens : List Token) : Bool :=
  let after := tokens.drop 1
  let third := tokens.drop 2
  startsSign "<" tokens &&
    (startsSign ">" after || startsSign "#" after || startsWord "const" after ||
      ((startsIdentifier after || startsLifetime after) &&
        (startsSign ":" third || startsSign "," third || startsSign ">" third ||
          startsSign "=" third)))

/-- An implementation behind its words. -/
def implItem (rules : Rules) (words : List String) : Reader Node := do
  let generics ← if startsImplGenerics (← get) then generics? rules else pure none
  let negative ← sign? "!"
  let first ← rules.type true
  if ← word? "for" then
    match first with
    | .path .. =>
      let type ← rules.type true
      let clause ← whereClause? rules
      return .implementation words generics negative (some first) type clause
        (← memberItems rules false)
    | _ => failure
  else
    if negative then failure
    let clause ← whereClause? rules
    return .implementation words generics false none first clause (← memberItems rules false)

/-- A trait behind its words. -/
def traitItem (rules : Rules) (words : List String) : Reader Node := do
  let name ← identifier
  let generics ← generics? rules
  let bounds ←
    if ← sign? ":" then
      boundsUntil rules fun ts => startsWord "where" ts || startsGroup .curly ts
    else pure []
  let clause ← whereClause? rules
  return .traitItem words name generics bounds clause (← memberItems rules true)

/-! ## Items -/

/-- An item behind its attributes. -/
def item (rules : Rules) : Reader Node := do
  let visible ← visibility
  let tokens ← get
  let subject ←
    if startsFunction tokens then function rules false
    else if startsWord "use" tokens then
      word "use"
      useItem
    else if startsWord "static" tokens then
      word "static"
      let mutability ← optionalWord "mut"
      constantItem rules ("static" :: mutability)
    else if startsWord "const" tokens then
      word "const"
      constantItem rules ["const"]
    else if startsWord "type" tokens then
      word "type"
      aliasItem rules
    else if startsWord "struct" tokens then
      word "struct"
      structItem rules "struct"
    else if startsWord "enum" tokens then
      word "enum"
      enumItem rules
    else if startsWord "union" tokens && startsIdentifier (tokens.drop 1) then
      word "union"
      structItem rules "union"
    else if startsWord "mod" tokens then
      word "mod"
      moduleItem rules
    else
      let safety ← optionalWord "unsafe"
      let auto ← optionalWord "auto"
      if ← word? "trait" then traitItem rules (safety ++ auto)
      else if auto.isEmpty then
        if ← word? "impl" then implItem rules safety
        else if safety.isEmpty && visible.isEmpty then macroItem
        else failure
      else failure
  return withVisibility visible subject

end Slotwise.Code.Grammar
