import Slotwise.Naming
import Slotwise.Code.Literal
import Slotwise.Code.Token
/-!
# Token trees of a text

A text is read as tokens between blanks and comments; brackets have to balance. A documentation
comment stands for the attribute it abbreviates. Every step takes at least one character, so the
length of the text bounds the number of steps.
-/

namespace Slotwise.Code.Lexer

/-! ## Blanks and comments -/

/-- Whether the character separates tokens. -/
def isSpace (c : Char) : Bool :=
  Text.isBlank c || c == '\u200e' || c == '\u200f'

/-- The rest of the line, and what follows it from its line break on. -/
def restOfLine : List Char → List Char × List Char
  | [] => ([], [])
  | '\n' :: rest => ([], '\n' :: rest)
  | '\r' :: '\n' :: rest => ([], '\n' :: rest)
  | c :: rest => (c :: (restOfLine rest).1, (restOfLine rest).2)

/-- The body of a block comment at this depth of nesting, and what follows the comment. -/
def blockBody? (depth : Nat) : List Char → Option (List Char × List Char)
  | '/' :: '*' :: rest => do
    let (body, rest) ← blockBody? (depth + 1) rest
    some ('/' :: '*' :: body, rest)
  | '*' :: '/' :: rest =>
    match depth with
    | 0 => some ([], rest)
    | depth + 1 => do
      let (body, rest) ← blockBody? depth rest
      some ('*' :: '/' :: body, rest)
  | c :: rest => do
    let (body, rest) ← blockBody? depth rest
    some (c :: body, rest)
  | [] => none

/-- A block comment: its body and what follows it. -/
def blockComment? (cs : List Char) : Option (List Char × List Char) :=
  (Literal.after? "/*" cs).bind (blockBody? 0)

/-- What follows the plain comment at the beginning of the text. -/
def afterComment? (cs : List Char) : Option (List Char) :=
  match cs with
  | '/' :: '/' :: rest =>
    match rest with
    | '/' :: '/' :: _ => some (restOfLine cs).2
    | '/' :: _ | '!' :: _ => none
    | _ => some (restOfLine cs).2
  | '/' :: '*' :: rest =>
    match rest with
    | '*' :: '/' :: after => some after
    | '*' :: '*' :: _ => (blockComment? cs).map (·.2)
    | '*' :: _ | '!' :: _ => none
    | _ => (blockComment? cs).map (·.2)
  | _ => none

/-- What follows the blanks and plain comments at the beginning of the text. -/
def skipSpace : Nat → List Char → List Char
  | 0, cs => cs
  | fuel + 1, cs =>
    match afterComment? cs with
    | some rest => skipSpace fuel rest
    | none =>
      match cs with
      | [] => []
      | c :: rest => if isSpace c then skipSpace fuel rest else cs

/-- Whether a carriage return stands alone in the text. -/
def hasBareReturn : List Char → Bool
  | [] => false
  | '\r' :: '\n' :: rest => hasBareReturn rest
  | '\r' :: _ => true
  | _ :: rest => hasBareReturn rest

/-- The documentation comment at the beginning of the text: whether it is an inner one, its content,
and what follows it. -/
def docComment? (cs : List Char) : Option (Bool × List Char × List Char) :=
  match cs with
  | '/' :: '/' :: '!' :: rest => some (true, restOfLine rest)
  | '/' :: '*' :: '!' :: _ => (blockComment? cs).map fun (body, rest) => (true, body.drop 1, rest)
  | '/' :: '/' :: '/' :: rest =>
    match rest with
    | '/' :: _ => none
    | _ => some (false, restOfLine rest)
  | '/' :: '*' :: '*' :: rest =>
    match rest with
    | '*' :: _ => none
    | _ => (blockComment? cs).map fun (body, rest) => (false, body.drop 1, rest)
  | _ => none

/-- The attribute that a documentation comment stands for. -/
def docTokens (inner : Bool) (content : List Char) : List Token :=
  .mark '#' false :: ((if inner then [.mark '!' false] else []) ++
    [.group .square [.word "doc", .mark '=' false,
      .literal (Text.quoteLiteral (String.ofList content))]])

/-! ## Tokens -/

/-- The characters before `rest` in `cs`. -/
def consumed (cs rest : List Char) : String :=
  String.ofList (cs.take (cs.length - rest.length))

/-- The punctuation marks. -/
def markChars : List Char :=
  ['~', '!', '@', '#', '$', '%', '^', '&', '*', '-', '=', '+', '|', ';', ':', ',', '<', '.', '>',
    '/', '?', '\'']

/-- Whether the text starts with a punctuation mark; the start of a comment is none. -/
def startsWithMark : List Char → Bool
  | '/' :: '/' :: _ | '/' :: '*' :: _ => false
  | c :: _ => markChars.contains c
  | [] => false

/-- An identifier with an optional raw mark, and what follows it. -/
def identifier? (cs : List Char) : Option (String × List Char) := do
  let rest ← Literal.afterIdentifier? (if "r#".toList.isPrefixOf cs then cs.drop 2 else cs)
  let text := consumed cs rest
  if Naming.isLegal text then some (text, rest) else none

/-- Whether the text starts like a literal, so that no identifier is read there. -/
def startsLikeLiteral (cs : List Char) : Bool :=
  ["r\"", "r#\"", "r##", "b\"", "b'", "br\"", "br#", "c\"", "cr\"", "cr#"].any fun start =>
    start.toList.isPrefixOf cs

/-- The token at the beginning of the text, brackets excepted, and what follows it. -/
def leaf? (cs : List Char) : Option (Token × List Char) :=
  match Literal.afterLiteral? cs with
  | some rest => some (.literal (consumed cs rest), rest)
  | none =>
    if startsWithMark cs then
      match cs with
      | '\'' :: rest => do
        let (name, after) ← identifier? rest
        if after.head? = some '\'' then none
        else if after.head? = some '#' ∧ ¬ "r#".toList.isPrefixOf rest then none
        else some (.lifetime ("'" ++ name), after)
      | c :: rest => some (.mark c (startsWithMark rest), rest)
      | [] => none
    else if startsLikeLiteral cs then none
    else do
      let (text, rest) ← identifier? cs
      some (.word text, rest)

/-- The tokens up to the end or to a closing bracket, and what follows them. -/
def tokens? : Nat → List Char → Option (List Token × List Char)
  | 0, _ => none
  | fuel + 1, cs =>
    let cs := skipSpace (cs.length + 1) cs
    match docComment? cs with
    | some (inner, content, rest) =>
      if hasBareReturn content then none
      else do
        let (more, rest) ← tokens? fuel rest
        some (docTokens inner content ++ more, rest)
    | none =>
      match cs with
      | [] => some ([], [])
      | c :: rest =>
        if [')', ']', '\x7d'].contains c then some ([], cs)
        else
          match Bracket.ofOpening? c with
          | some bracket => do
            let (body, rest) ← tokens? fuel rest
            match rest with
            | closer :: rest =>
              if closer = bracket.closing then do
                let (more, rest) ← tokens? fuel rest
                some (.group bracket body :: more, rest)
              else none
            | [] => none
          | none => do
            let (token, rest) ← leaf? cs
            let (more, rest) ← tokens? fuel rest
            some (token :: more, rest)

/-- The characters without a byte order mark at the beginning. -/
def withoutByteOrderMark : List Char → List Char
  | '\ufeff' :: rest => rest
  | cs => cs

/-- The tokens of a whole text. -/
def tokenize? (text : String) : Option (List Token) :=
  let cs := withoutByteOrderMark text.toList
  match tokens? (cs.length + 1) cs with
  | some (tokens, []) => some tokens
  | _ => none

end Slotwise.Code.Lexer
