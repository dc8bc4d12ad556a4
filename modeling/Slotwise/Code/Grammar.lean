import Slotwise.Code.Grammar.Statement
import Slotwise.Code.Lexer
/-!
# Reading code

The readers of all categories tied together, and the reading of whole texts. Each rule refers to the
rules one level deeper. Between two levels that take no token there is one that does, so the number
of tokens bounds the depth that a sequence can need.
-/

namespace Slotwise.Code

/-- The rules that read forms nested at most `depth` levels deep. -/
def Rules.below : Nat → Rules
  | 0 => ⟨fun _ => failure, fun _ => failure, failure, fun _ _ => failure, failure, failure,
      failure⟩
  | depth + 1 =>
    { type := fun plus tokens => Grammar.type (below depth) plus tokens
      expression := fun structs tokens => Grammar.expression (below depth) structs tokens
      boundary := fun tokens => Grammar.boundary (below depth) tokens
      bound := fun capturing constant tokens =>
        Grammar.singleBound (below depth) capturing constant tokens
      pattern := fun tokens => Grammar.pattern (below depth) tokens
      statements := fun tokens => Grammar.statements (below depth) tokens
      item := fun tokens => Grammar.item (below depth) tokens }

/-- The rules that suffice for a sequence of tokens. -/
def Rules.forTokens (tokens : List Token) : Rules :=
  Rules.below (3 * Token.sizeAll tokens + 8)

/-- What the reader makes of the whole sequence. -/
def readAll? {α : Type} (reader : Rules → Reader α) (tokens : List Token) : Option α :=
  match reader (Rules.forTokens tokens) tokens with
  | some (x, []) => some x
  | _ => none

namespace Node

/-- The identifier that the text consists of. -/
def identifier? (text : String) : Option String :=
  (Lexer.tokenize? text).bind (readAll? fun _ => Reader.identifier)

/-- The type that the text consists of. -/
def type? (text : String) : Option Node :=
  (Lexer.tokenize? text).bind (readAll? fun rules => rules.type true)

/-- The expression that the text consists of. -/
def expression? (text : String) : Option Node :=
  (Lexer.tokenize? text).bind (readAll? fun rules => rules.expression true)

/-- The attribute body that the text consists of. -/
def attribute? (text : String) : Option Node :=
  (Lexer.tokenize? text).bind (readAll? Grammar.metaBody)

/-- The path without arguments that the text consists of. -/
def path? (text : String) : Option Node :=
  (Lexer.tokenize? text).bind (readAll? fun _ => Grammar.plainPath)

end Node

/-- The file that a sequence of tokens forms. -/
def File.ofTokens? (tokens : List Token) : Option File :=
  readAll? (fun rules => do
    let attributes ← Grammar.innerAttributes rules
    let items ← Reader.many (fun ts => !ts.isEmpty) do
      let attributes ← Grammar.outerAttributes rules
      return Grammar.withAttributes attributes (← rules.item)
    return (⟨attributes, items⟩ : File)) tokens

end Slotwise.Code
