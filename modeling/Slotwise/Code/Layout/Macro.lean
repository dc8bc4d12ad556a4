import Slotwise.Code.Layout.Path
/-!
# Layout of macro calls

The tokens of a macro call are no code that could be laid out by its form; blanks between them are
chosen by what stands next to each other.
-/

namespace Slotwise.Code.Layout

open Doc

/-- What was written last of the tokens of a macro call. -/
inductive Spacing where
  /-- Nothing yet. -/
  | start
  /-- A dollar sign. -/
  | dollar
  /-- A hash mark. -/
  | pound
  /-- A hash mark and an exclamation mark. -/
  | poundBang
  /-- A dot. -/
  | dot
  /-- The first of two colons. -/
  | colon
  /-- Two colons. -/
  | colons
  /-- A name or a literal. -/
  | name
  /-- A name and an exclamation mark. -/
  | nameBang
  /-- A group in round or square brackets. -/
  | group
  /-- Anything else. -/
  | other
deriving DecidableEq, Repr

/-- The words that stand apart from brackets behind them. -/
def apartWords : List String :=
  ["as", "box", "break", "const", "continue", "crate", "else", "enum", "extern", "fn", "for", "if",
    "impl", "in", "let", "loop", "match", "mod", "move", "mut", "pub", "ref", "return", "static",
    "struct", "trait", "type", "unsafe", "use", "where", "while"]

/-- Whether a blank stands between what was written last and the token, and what is written last
then. -/
def spacing (last : Spacing) : Token → Bool × Spacing
  | .group bracket _ =>
    match last, bracket with
    | .dollar, .round => (false, .other)
    | .pound, .square | .poundBang, .square => (false, .other)
    | .name, .round | .name, .square => (false, .group)
    | .nameBang, _ => (false, .other)
    | _, .curly => (true, .other)
    | _, _ => (true, .group)
  | .word text =>
    if last = .dollar then (false, .other)
    else if apartWords.contains text then (true, .other)
    else (last ≠ .dot ∧ last ≠ .colons, .name)
  | .literal _ => (last ≠ .dot, .name)
  | .lifetime text => (true, if apartWords.contains (text.drop 1).copy then .other else .name)
  | .mark c joint =>
    if last = .pound ∧ c = '!' then (false, .poundBang)
    else if last = .name ∧ c = '!' ∧ !joint then (false, .nameBang)
    else if last = .colon ∧ c = ':' then (false, .colons)
    else if c = ',' ∨ c = ';' then (false, .other)
    else if c = '.' then (last ≠ .name ∧ last ≠ .group, .dot)
    else if c = ':' ∧ joint then (last ≠ .name, .colon)
    else if c = '$' then (true, .dollar)
    else if c = '#' then (true, .pound)
    else (true, .other)

/-- Whether the next token follows at once. -/
def isJoint : Token → Bool
  | .mark c joint => joint || c == '$'
  | _ => false

/-- Whether the token is a dot. -/
def isDot : Token → Bool
  | .mark c _ => c == '.'
  | _ => false

mutual

/-- A token of a macro call. -/
def macroToken : Token → Doc
  | .word text | .literal text | .lifetime text => word text
  | .mark c _ => word (String.singleton c)
  | .group bracket body =>
    let edge := if bracket = .curly ∧ !body.isEmpty then space else []
    word (String.singleton bracket.opening) ++ edge ++ macroTokens .start true body ++ edge ++
      word (String.singleton bracket.closing)

/-- The tokens of a macro call behind what was written last; `joint` when nothing comes between. -/
def macroTokens (last : Spacing) (joint : Bool) : List Token → Doc
  | [] => []
  | token :: rest =>
    let (apart, next) := spacing last token
    let between :=
      if joint then [] else if apart then space else if isDot token then zeroBreak else []
    between ++ macroToken token ++ macroTokens next (isJoint token) rest

end

/-- A macro call; `ended` when a semicolon ends it, unless its brackets are curly. -/
def macroCall (below : Layouts) (ended : Bool) (route : Node) (name : Option String)
    (bracket : Bracket) (tokens : List Token) : Doc :=
  let edge := if bracket = .curly then hardBreak else zeroBreak
  let body :=
    if tokens.isEmpty then []
    else stacked indent (dedent (edge ++ filled 0 (macroTokens .start true tokens) ++ edge))
  plainPath below route ++ word "!" ++ ofOption (name.map fun text => word (" " ++ text)) ++
    word ((if bracket = .curly then " " else "") ++ String.singleton bracket.opening) ++ body ++
    word (String.singleton bracket.closing) ++
    if ended ∧ bracket ≠ .curly then word ";" else []

end Slotwise.Code.Layout
