import Slotwise.Naming
import Slotwise.Code.Node
/-!
# Reading tokens

A reader takes tokens from the front of a sequence and answers what it read, or fails. The readers
of types, patterns, expressions, statements and items refer to each other; `Rules` collects them, so
each is written against the rules one level deeper, and `Slotwise.Code.Grammar` ties them together.

Lists are read with a bound on their length that the sequence itself gives, since every item but the
last is followed by a separator.
-/

namespace Slotwise.Code

/-- A reader of tokens. -/
abbrev Reader (α : Type) := StateT (List Token) Option α

/-- The readers that refer to each other. -/
structure Rules where
  /-- A type; the flag allows bounds joined by `+`. -/
  type : Bool → Reader Node
  /-- An expression; the flag allows struct expressions. -/
  expression : Bool → Reader Node
  /-- An expression that ends with its block, unless a member or a question mark follows. -/
  boundary : Reader Node
  /-- A bound; the flags allow captured lifetimes and a `const` before the trait. -/
  bound : Bool → Bool → Reader Node
  /-- A pattern without alternatives. -/
  pattern : Reader Node
  /-- The statements of a block, up to its end. -/
  statements : Reader (List Node)
  /-- An item after its attributes. -/
  item : Reader Node

namespace Reader

/-! ## What comes next -/

/-- Whether the sequence starts with these marks, joint to each other. -/
def startsMarks : List Char → List Token → Bool
  | [c], .mark d _ :: _ => c == d
  | c :: cs, .mark d true :: rest => c == d && startsMarks cs rest
  | _, _ => false

/-- Whether the sequence starts with this operator. -/
def startsSign (text : String) (tokens : List Token) : Bool :=
  startsMarks text.toList tokens

/-- Whether the sequence starts with this word. -/
def startsWord (text : String) : List Token → Bool
  | .word w :: _ => w == text
  | _ => false

/-- Whether the sequence starts with one of these words. -/
def startsWordOf (texts : List String) : List Token → Bool
  | .word w :: _ => texts.contains w
  | _ => false

/-- Whether the sequence starts with any word. -/
def startsAnyWord : List Token → Bool
  | .word _ :: _ => true
  | _ => false

/-- The words that are no identifiers. -/
def keywords : List String :=
  ["_", "abstract", "as", "async", "await", "become", "box", "break", "const", "continue", "crate",
    "do", "dyn", "else", "enum", "extern", "false", "final", "fn", "for", "if", "impl", "in",
    "let", "loop", "macro", "match", "mod", "move", "mut", "override", "priv", "pub", "ref",
    "return", "Self", "self", "static", "struct", "super", "trait", "true", "try", "type",
    "typeof", "unsafe", "unsized", "use", "virtual", "where", "while", "yield"]

/-- Whether the sequence starts with an identifier. -/
def startsIdentifier : List Token → Bool
  | .word w :: _ => !keywords.contains w
  | _ => false

/-- Whether the sequence starts with a lifetime. -/
def startsLifetime : List Token → Bool
  | .lifetime _ :: _ => true
  | _ => false

/-- Whether the sequence starts with a group in these brackets. -/
def startsGroup (bracket : Bracket) : List Token → Bool
  | .group b _ :: _ => b == bracket
  | _ => false

/-- Whether a literal is a number. -/
def isNumber (text : String) : Bool :=
  (text.toList.head?.map Char.isDigit).getD false

/-- Whether the sequence starts with a literal; a sign before a number and truth values count. -/
def startsLiteral : List Token → Bool
  | .literal _ :: _ => true
  | .word w :: _ => w == "true" || w == "false"
  | .mark '-' _ :: .literal text :: _ => isNumber text
  | _ => false

/-- Whether the sequence starts like a path that is no keyword path. -/
def startsPathWord (tokens : List Token) : Bool :=
  startsIdentifier tokens || startsWordOf ["self", "Self", "super", "crate"] tokens

/-- Whether what comes next satisfies the predicate. -/
def next (p : List Token → Bool) : Reader Bool := do
  return p (← get)

/-- Whether nothing is left. -/
def atEnd : Reader Bool := do
  return (← get).isEmpty

/-! ## Taking tokens -/

/-- Takes an operator. -/
def sign (text : String) : Reader Unit := do
  let tokens ← get
  if startsSign text tokens then set (tokens.drop text.length) else failure

/-- Takes an operator if it comes next, and answers whether it did. -/
def sign? (text : String) : Reader Bool := do
  let tokens ← get
  if startsSign text tokens then
    set (tokens.drop text.length)
    return true
  else return false

/-- Takes a word. -/
def word (text : String) : Reader Unit := do
  let tokens ← get
  if startsWord text tokens then set (tokens.drop 1) else failure

/-- Takes a word if it comes next, and answers whether it did. -/
def word? (text : String) : Reader Bool := do
  let tokens ← get
  if startsWord text tokens then
    set (tokens.drop 1)
    return true
  else return false

/-- Takes a word if it comes next, and answers the words taken. -/
def optionalWord (text : String) : Reader (List String) := do
  return if ← word? text then [text] else []

/-- Takes any word. -/
def anyWord : Reader String := do
  match ← get with
  | .word w :: rest => set rest; return w
  | _ => failure

/-- Takes an identifier. -/
def identifier : Reader String := do
  if startsIdentifier (← get) then anyWord else failure

/-- Takes a lifetime. -/
def lifetime : Reader String := do
  match ← get with
  | .lifetime name :: rest => set rest; return name
  | _ => failure

/-- Takes a lifetime if one comes next. -/
def lifetime? : Reader (Option String) := do
  if startsLifetime (← get) then some <$> lifetime else return none

/-- Takes a literal; a truth value is one, and so is a number with a sign. -/
def literal : Reader Node := do
  match ← get with
  | .literal text :: rest => set rest; return .literal text
  | .word w :: rest =>
    if w == "true" || w == "false" then
      set rest
      return .path false [.segment w none]
    else failure
  | .mark '-' _ :: .literal text :: rest =>
    if isNumber text then
      set rest
      return .unary "-" (.literal text)
    else failure
  | _ => failure

/-- Takes a group in these brackets and reads all of its body. -/
def inside {α : Type} (bracket : Bracket) (body : Reader α) : Reader α := do
  match ← get with
  | .group b tokens :: rest =>
    if b == bracket then
      match body tokens with
      | some (x, []) => set rest; return x
      | _ => failure
    else failure
  | _ => failure

/-- Takes a group in any brackets. -/
def anyGroup : Reader (Bracket × List Token) := do
  match ← get with
  | .group b tokens :: rest => set rest; return (b, tokens)
  | _ => failure

/-- The tokens that the reader takes. -/
def taken {α : Type} (reader : Reader α) : Reader (List Token) := do
  let before ← get
  let _ ← reader
  let after ← get
  return before.take (before.length - after.length)

/-! ## Lists -/

/-- Reads items while the predicate holds of what comes next, at most `bound` of them. -/
def manyBelow {α : Type} (more : List Token → Bool) (item : Reader α) : Nat → Reader (List α)
  | 0 => failure
  | bound + 1 => do
    if more (← get) then
      let x ← item
      let xs ← manyBelow more item bound
      return x :: xs
    else return []

/-- Reads items while the predicate holds of what comes next. -/
def many {α : Type} (more : List Token → Bool) (item : Reader α) : Reader (List α) := do
  manyBelow more item ((← get).length + 1)

/-- Reads items with commas between them until the predicate holds, at most `bound` of them; the
flag tells whether a comma ends the list. -/
def listedBelow (stop : List Token → Bool) (item : Reader Node) : Nat → Reader (List Node × Bool)
  | 0 => failure
  | bound + 1 => do
    if stop (← get) then return ([], false)
    let x ← item
    if stop (← get) then return ([x], false)
    sign ","
    if stop (← get) then return ([x], true)
    let (xs, comma) ← listedBelow stop item bound
    return (x :: xs, comma)

/-- Reads items with commas between them until the predicate holds. -/
def listedUntil (stop : List Token → Bool) (item : Reader Node) : Reader (List Node × Bool) := do
  listedBelow stop item ((← get).length + 1)

/-- Reads items with commas between them up to the end. -/
def listed (item : Reader Node) : Reader (List Node × Bool) :=
  listedUntil List.isEmpty item

/-- Whether a `+` comes next. -/
def plusNext : List Token → Bool :=
  startsSign "+"

end Reader

end Slotwise.Code
