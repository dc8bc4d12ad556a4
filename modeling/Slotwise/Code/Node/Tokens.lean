import Slotwise.Code.Node
/-!
# The tokens of a tree

The written form of every piece of code as a sequence of tokens. The tree fixes the tokens
completely, trailing commas included.
-/

namespace Slotwise.Code

namespace Token

/-- The mark `c` by itself. -/
def sign (c : Char) : Token :=
  mark c false

/-- A name: a word, or a number that stands for a component. -/
def name (text : String) : Token :=
  if (text.toList.head?.map Char.isDigit).getD false then literal text else word text

/-- The sequences with `separator` between them, and behind the last one if `trailing`. -/
def separated (separator : List Token) (trailing : Bool) : List (List Token) → List Token
  | [] => []
  | [item] => item ++ (if trailing then separator else [])
  | item :: rest => item ++ separator ++ separated separator trailing rest

/-- The sequences with commas between them. -/
def listed (comma : Bool) (items : List (List Token)) : List Token :=
  separated [sign ','] comma items

/-- The sequences with commas between them, in angle brackets. -/
def inAngles (comma : Bool) (items : List (List Token)) : List Token :=
  sign '<' :: (listed comma items ++ [sign '>'])

/-- The words as tokens. -/
def words (texts : List String) : List Token :=
  texts.map word

end Token

namespace Node

open Token (sign word operator listed separated inAngles)

mutual

/-- The tokens of a piece of code. -/
def tokens : Node → List Token
  | literal text => [.literal text]
  | lifetime name => [.lifetime name]
  | wild => [word "_"]
  | never => [sign '!']
  | verbatim kept => kept
  | macroCall route name bracket body =>
    route.tokens ++ sign '!' :: ((name.map word).toList ++ [.group bracket body])
  | path rooted segments =>
    (if rooted then operator "::" else []) ++
      separated (operator "::") false (tokensEach segments)
  | segment name arguments => word name :: tokensOf arguments
  | projected self asTrait segments =>
    sign '<' :: (self.tokens ++
      (match asTrait with
        | none => []
        | some route => word "as" :: route.tokens) ++
      sign '>' :: (operator "::" ++ separated (operator "::") false (tokensEach segments)))
  | angled colons arguments comma =>
    (if colons then operator "::" else []) ++ inAngles comma (tokensEach arguments)
  | callable inputs comma output =>
    .group .round (listed comma (tokensEach inputs)) :: tokensAfter (operator "->") output
  | associated name arguments value =>
    word name :: (tokensOf arguments ++ sign '=' :: value.tokens)
  | constrained name arguments bounds =>
    word name :: (tokensOf arguments ++ sign ':' ::
      separated [sign '+'] false (tokensEach bounds))
  | attr inner content =>
    sign '#' :: ((if inner then [sign '!'] else []) ++ [.group .square content.tokens])
  | metaList route bracket body => route.tokens ++ [.group bracket body]
  | metaValue route value => route.tokens ++ sign '=' :: value.tokens
  | attributed attributes subject => (tokensEach attributes).flatten ++ subject.tokens
  | reference life words subject =>
    sign '&' :: ((life.map Token.lifetime).toList ++ Token.words words ++ subject.tokens)
  | pointer text subject => sign '*' :: word text :: subject.tokens
  | list items comma => [.group .square (listed comma (tokensEach items))]
  | repeated item count => [.group .square (item.tokens ++ sign ';' :: count.tokens)]
  | tuple items comma => [.group .round (listed comma (tokensEach items))]
  | paren subject => [.group .round subject.tokens]
  | typed subject type => subject.tokens ++ sign ':' :: type.tokens
  | fnPointer lifetimes qualifiers inputs comma output =>
    tokensOf lifetimes ++ qualifiers ++ word "fn" ::
      .group .round (listed comma (tokensEach inputs)) :: tokensAfter (operator "->") output
  | forLifetimes lifetimes comma => word "for" :: inAngles comma (tokensEach lifetimes)
  | bounded text bounds plus =>
    (text.map word).toList ++ separated [sign '+'] plus (tokensEach bounds)
  | bound parens maybe lifetimes route =>
    let body := (if maybe then [sign '?'] else []) ++ tokensOf lifetimes ++ route.tokens
    if parens then [.group .round body] else body
  | call callee arguments comma =>
    callee.tokens ++ [.group .round (listed comma (tokensEach arguments))]
  | method receiver name arguments inputs comma =>
    receiver.tokens ++ sign '.' :: word name ::
      (tokensOf arguments ++ [.group .round (listed comma (tokensEach inputs))])
  | member subject name => subject.tokens ++ [sign '.', Token.name name]
  | index subject position => subject.tokens ++ [.group .square position.tokens]
  | question subject => subject.tokens ++ [sign '?']
  | await subject => subject.tokens ++ [sign '.', word "await"]
  | unary text subject => operator text ++ subject.tokens
  | binary text left right => left.tokens ++ operator text ++ right.tokens
  | cast subject type => subject.tokens ++ word "as" :: type.tokens
  | range start closed stop =>
    tokensOf start ++ operator (if closed then "..=" else "..") ++ tokensOf stop
  | fields route items comma => route.tokens ++ [.group .curly (listed comma (tokensEach items))]
  | closure lifetimes words inputs comma output body =>
    tokensOf lifetimes ++ Token.words words ++ sign '|' ::
      (listed comma (tokensEach inputs) ++ sign '|' ::
        (tokensAfter (operator "->") output ++ body.tokens))
  | block words statements =>
    Token.words words ++ [.group .curly (tokensEach statements).flatten]
  | labeled label subject => .lifetime label :: sign ':' :: subject.tokens
  | conditional condition body otherwise =>
    word "if" :: (condition.tokens ++ body.tokens ++ tokensAfter [word "else"] otherwise)
  | letCondition pattern subject =>
    word "let" :: (pattern.tokens ++ sign '=' :: subject.tokens)
  | forever body => word "loop" :: body.tokens
  | whileLoop condition body => word "while" :: (condition.tokens ++ body.tokens)
  | forLoop pattern subject body =>
    word "for" :: (pattern.tokens ++ word "in" :: (subject.tokens ++ body.tokens))
  | choice subject arms =>
    word "match" :: (subject.tokens ++ [.group .curly (tokensEach arms).flatten])
  | arm pattern guard body comma =>
    pattern.tokens ++ tokensAfter [word "if"] guard ++ operator "=>" ++ body.tokens ++
      (if comma then [sign ','] else [])
  | jump text label value =>
    word text :: ((label.map Token.lifetime).toList ++ tokensOf value)
  | letStatement pattern value otherwise =>
    word "let" :: (pattern.tokens ++ tokensAfter [sign '='] value ++
      tokensAfter [word "else"] otherwise ++ [sign ';'])
  | terminated subject => subject.tokens ++ [sign ';']
  | capture words name pattern =>
    Token.words words ++ word name :: tokensAfter [sign '@'] pattern
  | alternatives leading patterns =>
    (if leading then [sign '|'] else []) ++ separated [sign '|'] false (tokensEach patterns)
  | visible visibility subject => visibility ++ subject.tokens
  | generics parameters comma => inAngles comma (tokensEach parameters)
  | parameter name bounds fallback =>
    name.tokens ++
      (if bounds.isEmpty then []
      else sign ':' :: separated [sign '+'] false (tokensEach bounds)) ++
      tokensAfter [sign '='] fallback
  | constParameter name type fallback =>
    word "const" :: word name :: sign ':' :: (type.tokens ++ tokensAfter [sign '='] fallback)
  | whereClause predicates comma => word "where" :: listed comma (tokensEach predicates)
  | predicate lifetimes subject bounds =>
    tokensOf lifetimes ++ subject.tokens ++ sign ':' ::
      separated [sign '+'] false (tokensEach bounds)
  | unitStruct name params clause =>
    word "struct" :: word name :: (tokensOf params ++ tokensOf clause ++ [sign ';'])
  | fieldStruct text name params clause members comma =>
    word text :: word name :: (tokensOf params ++ tokensOf clause ++
      [.group .curly (listed comma (tokensEach members))])
  | tupleStruct name params members comma clause =>
    word "struct" :: word name :: (tokensOf params ++
      .group .round (listed comma (tokensEach members)) :: (tokensOf clause ++ [sign ';']))
  | enumeration name params clause variants comma =>
    word "enum" :: word name :: (tokensOf params ++ tokensOf clause ++
      [.group .curly (listed comma (tokensEach variants))])
  | unitVariant name value => word name :: tokensAfter [sign '='] value
  | fieldVariant name members comma value =>
    word name :: .group .curly (listed comma (tokensEach members)) ::
      tokensAfter [sign '='] value
  | tupleVariant name members comma value =>
    word name :: .group .round (listed comma (tokensEach members)) ::
      tokensAfter [sign '='] value
  | function qualifiers name params inputs comma output clause body =>
    qualifiers ++ word "fn" :: word name :: (tokensOf params ++
      .group .round (listed comma (tokensEach inputs)) ::
        (tokensAfter (operator "->") output ++ tokensOf clause ++
          (match body with
            | none => [sign ';']
            | some body => body.tokens)))
  | implementation words params negative ofTrait type clause items =>
    Token.words words ++ word "impl" :: (tokensOf params ++
      (if negative then [sign '!'] else []) ++
      (match ofTrait with
        | none => []
        | some route => route.tokens ++ [word "for"]) ++
      type.tokens ++ tokensOf clause ++ [.group .curly (tokensEach items).flatten])
  | traitItem words name params bounds clause items =>
    Token.words words ++ word "trait" :: word name :: (tokensOf params ++
      (if bounds.isEmpty then []
      else sign ':' :: separated [sign '+'] false (tokensEach bounds)) ++
      tokensOf clause ++ [.group .curly (tokensEach items).flatten])
  | typeAlias name params bounds clause type =>
    word "type" :: word name :: (tokensOf params ++
      (if bounds.isEmpty then []
      else sign ':' :: separated [sign '+'] false (tokensEach bounds)) ++
      tokensOf clause ++ tokensAfter [sign '='] type ++ [sign ';'])
  | constItem words name type value =>
    Token.words words ++ word name :: sign ':' ::
      (type.tokens ++ tokensAfter [sign '='] value ++ [sign ';'])
  | useItem rooted tree =>
    word "use" :: ((if rooted then operator "::" else []) ++ tree.tokens ++ [sign ';'])
  | useStep name below => word name :: tokensAfter (operator "::") below
  | useAs name other => [word name, word "as", word other]
  | useAll => [sign '*']
  | useGroup trees comma => [.group .curly (listed comma (tokensEach trees))]
  | moduleItem name items =>
    word "mod" :: word name ::
      (match items with
        | none => [sign ';']
        | some items => [.group .curly (tokensEach items).flatten])

/-- The tokens of each of several pieces of code. -/
def tokensEach : List Node → List (List Token)
  | [] => []
  | node :: rest => node.tokens :: tokensEach rest

/-- The tokens of a piece of code that may be absent. -/
def tokensOf : Option Node → List Token
  | none => []
  | some node => node.tokens

/-- The tokens of a piece of code that may be absent, behind `before`. -/
def tokensAfter (before : List Token) : Option Node → List Token
  | none => []
  | some node => before ++ node.tokens

end

/-- The flat form of the tokens of a piece of code. -/
def flatText (node : Node) : String :=
  Token.flatText node.tokens

@[simp] theorem tokensEach_eq_map (nodes : List Node) : tokensEach nodes = nodes.map tokens := by
  induction nodes with
  | nil => simp [tokensEach]
  | cons node rest ih => simp [tokensEach, ih]

end Node

namespace File

/-- The tokens of a file. -/
def tokens (file : File) : List Token :=
  file.attributes.flatMap Node.tokens ++ file.items.flatMap Node.tokens

/-- The flat form of the tokens of a file. -/
def flatText (file : File) : String :=
  Token.flatText file.tokens

end File

end Slotwise.Code
