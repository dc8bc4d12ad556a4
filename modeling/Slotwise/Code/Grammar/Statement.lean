import Slotwise.Code.Grammar.Item
/-!
# Reading statements

The statements of a block: declarations of variables, items, expressions and macros. An expression
that does not end with its block needs a semicolon, unless it comes last.
-/

namespace Slotwise.Code.Grammar

open Reader

/-- The declaration of a variable behind its attributes. -/
def letStatement (rules : Rules) : Reader Node := do
  word "let"
  let pattern ← rules.pattern
  let pattern ← if ← sign? ":" then Node.typed pattern <$> rules.type true else pure pattern
  if ← sign? "=" then
    let value ← rules.expression true
    let otherwise ←
      if !value.endsWithCurly && startsWord "else" (← get) then
        word "else"
        some <$> blockOf rules []
      else pure none
    sign ";"
    return .letStatement pattern (some value) otherwise
  else
    sign ";"
    return .letStatement pattern none none

/-- What a macro's name and mark at the start of a statement announce. -/
inductive MacroStart where
  /-- No macro, or one that is part of an expression. -/
  | none
  /-- A macro that is an item. -/
  | item
  /-- A macro with curly brackets that is a statement. -/
  | statement

/-- What a macro's name and mark announce here. -/
def macroStart (tokens : List Token) : MacroStart :=
  match plainPath tokens with
  | some (_, .mark '!' _ :: rest) =>
    if startsIdentifier rest || startsWord "try" rest then .item
    else
      let after := rest.drop 1
      if startsGroup .curly rest && !(startsDot after || startsSign "?" after) then .statement
      else .none
  | _ => .none

/-- Whether an item comes next in a block. -/
def startsItem (tokens : List Token) : Bool :=
  let after := tokens.drop 1
  let third := tokens.drop 2
  let asyncClosure := startsWord "async" after &&
    (startsWord "move" third || startsSign "|" third)
  startsWordOf ["pub", "extern", "use", "fn", "mod", "type", "struct", "enum", "trait", "impl",
      "macro"] tokens ||
    (startsWord "crate" tokens && !startsSign "::" after) ||
    (startsWord "static" tokens &&
      (startsWord "mut" after || (startsIdentifier after && !asyncClosure))) ||
    (startsWord "const" tokens &&
      !(startsGroup .curly after || startsWord "static" after ||
        (startsWord "async" after && !startsWordOf ["unsafe", "extern", "fn"] third) ||
        startsWord "move" after || startsSign "|" after)) ||
    (startsWord "unsafe" tokens && !startsGroup .curly after) ||
    (startsWord "async" tokens && startsWordOf ["unsafe", "extern", "fn"] after) ||
    (startsWord "union" tokens && startsIdentifier after) ||
    (startsWord "auto" tokens && startsWord "trait" after) ||
    (startsWord "default" tokens && startsWordOf ["unsafe", "impl"] after)

/-- A statement; the flag tells whether it has to come last. -/
def statement (rules : Rules) : Reader (Node × Bool) := do
  let attributes ← outerAttributes rules
  let tokens ← get
  match macroStart tokens with
  | .statement =>
    let path ← plainPath
    sign "!"
    let (bracket, body) ← anyGroup
    let call := Node.macroCall path none bracket body
    if ← sign? ";" then return (withAttributes attributes (.terminated call), false)
    else return (withAttributes attributes call, false)
  | .item => return (withAttributes attributes (← rules.item), false)
  | .none =>
    if startsWord "let" tokens then
      return (withAttributes attributes (← letStatement rules), false)
    else if startsItem tokens then return (withAttributes attributes (← rules.item), false)
    else
      let subject := withAttributes attributes (← rules.boundary)
      if ← sign? ";" then return (.terminated subject, false)
      else return (subject, !subject.endsStatement)

/-- The statements up to the end, at most `bound` of them. -/
def statementsBelow (rules : Rules) : Nat → Reader (List Node)
  | 0 => failure
  | bound + 1 => do
    if ← atEnd then return []
    if ← sign? ";" then
      return .terminated (.verbatim []) :: (← statementsBelow rules bound)
    let (first, last) ← statement rules
    if ← atEnd then return [first]
    if last then failure
    return first :: (← statementsBelow rules bound)

/-- The statements up to the end. -/
def statements (rules : Rules) : Reader (List Node) := do
  statementsBelow rules ((← get).length + 1)

end Slotwise.Code.Grammar
