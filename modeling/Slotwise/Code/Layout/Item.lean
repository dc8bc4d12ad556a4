import Slotwise.Code.Layout.Statement
/-!
# Layout of items

Declarations of all kinds. A body in curly brackets has each of its parts on a line of its own; a
list of parameters is broken as a whole when it does not fit.
-/

namespace Slotwise.Code.Layout

open Doc

/-! ## Type parameters and conditions -/

/-- A parameter between angle brackets. -/
def genericParameter (below : Layouts) : Node → Doc :=
  attributed below fun
    | .parameter (.lifetime name) bounds fallback =>
      lifetimeParameter (.parameter (.lifetime name) bounds fallback)
    | .parameter name bounds fallback =>
      path below .plain name ++
        filled indent
          (breakableBounds below.bound ": " bounds ++
            ofOption (fallback.map fun type => space ++ word "= " ++ below.type type))
    | .constParameter name type fallback =>
      word ("const " ++ name ++ ": ") ++ below.type type ++
        ofOption (fallback.map fun value => word " = " ++ below.expression false value)
    | _ => []

/-- The type parameters. -/
def generics (below : Layouts) : Option Node → Doc
  | some (.generics parameters _) =>
    if parameters.isEmpty then []
    else
      word "<" ++
        stacked 0
          (dedent (zeroBreak ++
            listed commaEnd ((lifetimesFirst parameters).map (genericParameter below)))) ++
        word ">"
  | _ => []

/-- One condition on a type or lifetime. -/
def predicate (below : Layouts) : Node → Doc
  | .predicate _ (.lifetime name) bounds =>
    word (name ++ ":") ++ filled indent (breakableBounds below.bound " " bounds)
  | .predicate lifetimes subject bounds =>
    boundLifetimes lifetimes ++ below.type subject ++ word ":" ++
      filled (if bounds.length = 1 then 0 else indent) (breakableBounds below.bound " " bounds)
  | _ => []

/-- The conditions of a clause. -/
def predicates : Option Node → List Node
  | some (.whereClause nodes _) => nodes
  | _ => []

/-- The conditions before a body, each on a line; without any, one blank. -/
def clauseBeforeBody (below : Layouts) (clause : Option Node) : Doc :=
  let nodes := predicates clause
  if nodes.isEmpty then word " "
  else
    dedent hardBreak ++ word "where" ++
      dedent (hardBreak ++ nodes.flatMap fun node => predicate below node ++ word "," ++ hardBreak)

/-- The conditions at the end of an item, each on a line, and the semicolon. -/
def clauseAtEnd (below : Layouts) (clause : Option Node) : Doc :=
  let nodes := predicates clause
  if nodes.isEmpty then word ";"
  else
    dedent hardBreak ++ word "where" ++ hardBreak ++
      joined (word "," ++ hardBreak) (nodes.map (predicate below)) ++ word ";"

/-- The conditions before the type of an alias; without any, one blank. -/
def clauseBeforeType (below : Layouts) (clause : Option Node) : Doc :=
  let nodes := predicates clause
  if nodes.isEmpty then word " "
  else
    dedent space ++ word "where" ++
      dedent (space ++ listed commaSpaceEnd (nodes.map (predicate below)))

/-- The conditions at the end of an associated type, and the semicolon. -/
def clauseBehindType (below : Layouts) (clause : Option Node) : Doc :=
  let nodes := predicates clause
  if nodes.isEmpty then word ";"
  else
    dedent space ++ word "where" ++ space ++
      joined (word "," ++ space) (nodes.map (predicate below)) ++ word ";"

/-! ## Parts of declarations -/

/-- A visibility. -/
def visibility : List Token → Doc
  | [] => []
  | .word text :: .group _ inside :: _ =>
    word (text ++ "(" ++ (match inside with
      | .word "in" :: route => "in " ++ String.join (Token.flatAll route)
      | _ => tokenText inside) ++ ") ")
  | tokens => word (tokenText tokens ++ " ")

/-- A field with its visibility and attributes. -/
def field (below : Layouts) : Node → Doc :=
  let own : Node → Doc
    | .typed name type => path below .plain name ++ word ": " ++ below.type type
    | type => below.type type
  attributed below fun
    | .visible tokens node => visibility tokens ++ own node
    | node => own node

/-- Numbered fields in round brackets, broken with the group around them. -/
def numberedFields (below : Layouts) (nodes : List Node) : Doc :=
  dedent (word "(" ++ zeroBreak ++ listed commaEnd (nodes.map (field below))) ++ word ")"

/-- Parts of a body, each on a line and with a comma. -/
def commaLines (docs : List Doc) : Doc :=
  word "\x7b" ++ dedent (hardBreakIfMore ++ docs.flatMap (· ++ word "," ++ hardBreak))

/-- A variant of an enumeration. -/
def variant (below : Layouts) : Node → Doc :=
  let discriminant (value : Option Node) : Doc :=
    ofOption (value.map fun value => word " = " ++ below.expression false value)
  attributed below fun
    | .unitVariant name value => word name ++ discriminant value
    | .fieldVariant name nodes _ value =>
      word (name ++ " \x7b") ++
        stacked indent (dedent (space ++ listed commaSpaceEnd (nodes.map (field below)))) ++
        word "\x7d" ++ discriminant value
    | .tupleVariant name nodes _ value =>
      word name ++ stacked indent (numberedFields below nodes) ++ discriminant value
    | _ => []

/-- The name, the parameters and the output of a function. -/
def signature (below : Layouts) (words : List Token) (name : String) (params : Option Node)
    (inputs : List Node) (result : Option Node) : Doc :=
  qualifiers words ++ word ("fn " ++ name) ++ generics below params ++ word "(" ++ measureHere ++
    stacked 0 (dedent (zeroBreak ++ listed commaEnd (inputs.map below.pattern))) ++ word ")" ++
    stacked (-indent) (output below result)

/-- The items of a body, each on lines of its own. -/
def itemLines (item : Node → Doc) (nodes : List Node) : Doc :=
  word "\x7b" ++ dedent (hardBreakIfMore ++ nodes.flatMap item)

/-! ## Imports -/

/-- Whether an import ends in a list. -/
def endsInList : Node → Bool
  | .useStep _ (some below) => endsInList below
  | .useGroup .. => true
  | _ => false

mutual

/-- What is imported. -/
def useTree : Node → Doc
  | .useStep name none => word name
  | .useStep name (some rest) => word (name ++ "::") ++ useTree rest
  | .useAs name other => word (name ++ " as " ++ other)
  | .useAll => word "*"
  | .useGroup trees _ =>
    word "\x7b" ++ stacked indent (dedent (zeroBreak ++ filled 0 (useTrees trees) ++ commaEnd)) ++
      word "\x7d"
  | _ => []

/-- Several imports with commas between them. -/
def useTrees : List Node → Doc
  | [] => []
  | [tree] => useTree tree
  | tree :: rest =>
    useTree tree ++ word "," ++ (if endsInList tree then hardBreak else space) ++ useTrees rest

end

/-! ## Items -/

/-- A type alias. As a member, its conditions stand behind the type. -/
def aliasItem (below : Layouts) (isMember : Bool) (head : Doc) (clause type : Option Node) : Doc :=
  let definition :=
    ofOption (type.map fun type =>
      word "= " ++ measureHere ++ filled (-indent) (below.type type))
  let body :=
    if isMember then
      (if type.isSome then word " " else []) ++ definition ++ clauseBehindType below clause
    else clauseBeforeType below clause ++ definition ++ word ";"
  stacked indent (head ++ body) ++ hardBreak

/-- An item behind its attributes and its visibility. -/
def declared (below : Layouts) (isMember : Bool) (visible : Doc) : Node → Doc
  | .attr inner content => oneAttribute below (.attr inner content)
  | .constItem words name type value =>
    stacked 0
      (visible ++ ofWords words ++ word (name ++ ": ") ++ below.type type ++
        ofOption (value.map fun value =>
          word " = " ++ measureHere ++ below.expression false value) ++ word ";") ++ hardBreak
  | .enumeration name params clause variants _ =>
    stacked indent
      (visible ++ word ("enum " ++ name) ++ generics below params ++
        clauseBeforeBody below clause ++ commaLines (variants.map (variant below))) ++
      word "\x7d" ++ hardBreak
  | .fieldStruct text name params clause nodes _ =>
    stacked indent
      (visible ++ word (text ++ " " ++ name) ++ generics below params ++
        clauseBeforeBody below clause ++ commaLines (nodes.map (field below))) ++
      word "\x7d" ++ hardBreak
  | .tupleStruct name params nodes _ clause =>
    stacked indent
      (visible ++ word ("struct " ++ name) ++ generics below params ++
        numberedFields below nodes ++ clauseAtEnd below clause) ++ hardBreak
  | .unitStruct name params clause =>
    stacked indent
      (visible ++ word ("struct " ++ name) ++ generics below params ++
        clauseAtEnd below clause) ++ hardBreak
  | .function words name params inputs _ result clause body =>
    let head := visible ++ signature below words name params inputs result
    match body with
    | none => stacked indent (head ++ clauseAtEnd below clause) ++ hardBreak
    | some body =>
      stacked indent
        (head ++ clauseBeforeBody below clause ++ word "\x7b" ++ lines below (bodyOf body)) ++
        word "\x7d" ++ hardBreak
  | .implementation words params negative ofTrait type clause nodes =>
    stacked indent
      (filled (-indent)
        (stacked indent (ofWords words ++ word "impl" ++ generics below params) ++ word " " ++
          ofOption (ofTrait.map fun route =>
            (if negative then word "!" else []) ++ path below .type route ++ space ++
              word "for ") ++
          below.type type) ++
        clauseBeforeBody below clause ++ itemLines below.member nodes) ++ word "\x7d" ++ hardBreak
  | .traitItem words name params bounds clause nodes =>
    stacked indent
      (visible ++ ofWords words ++ word ("trait " ++ name) ++ generics below params ++
        (if bounds.isEmpty then [] else word ": " ++ plainBounds below.bound bounds) ++
        clauseBeforeBody below clause ++ itemLines below.member nodes) ++ word "\x7d" ++ hardBreak
  | .typeAlias name params bounds clause value =>
    aliasItem below isMember
      (visible ++ word ("type " ++ name) ++ generics below params ++
        breakableBounds below.bound ": " bounds) clause value
  | .useItem rooted tree =>
    visible ++ word (if rooted then "use ::" else "use ") ++ useTree tree ++ word ";" ++ hardBreak
  | .moduleItem name none => stacked indent (visible ++ word ("mod " ++ name ++ ";")) ++ hardBreak
  | .moduleItem name (some nodes) =>
    stacked indent (visible ++ word ("mod " ++ name ++ " ") ++ itemLines below.item nodes) ++
      word "\x7d" ++ hardBreak
  | .terminated (.macroCall route name bracket tokens)
  | .macroCall route name bracket tokens =>
    visible ++ macroCall below true route name bracket tokens ++ hardBreak
  | _ => []

/-- An item with its attributes and its visibility. -/
def item (below : Layouts) (isMember : Bool) : Node → Doc :=
  attributed below fun
    | .visible tokens node => declared below isMember (visibility tokens) node
    | node => declared below isMember [] node

end Slotwise.Code.Layout
