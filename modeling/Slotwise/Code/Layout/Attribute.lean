import Slotwise.Code.Layout.Path
import Slotwise.Code.Literal
/-!
# Layout of attributes

Documentation and comments are written as such where that gives the same text back; every other
attribute stands in square brackets.
-/

namespace Slotwise.Code.Layout

open Doc

/-! ## Documentation -/

/-- The text without blanks at its end. -/
def withoutEndBlanks (cs : List Char) : List Char :=
  (cs.reverse.dropWhile (· = ' ')).reverse

/-- The text behind these blanks, without blanks at the ends of its lines, the last line apart. -/
def withoutLineEndBlanks (blanks : List Char) : List Char → List Char
  | [] => blanks
  | ' ' :: rest => withoutLineEndBlanks (' ' :: blanks) rest
  | '\n' :: rest => '\n' :: withoutLineEndBlanks [] rest
  | c :: rest => blanks ++ c :: withoutLineEndBlanks [] rest

/-- Whether the text can stand in a block comment: every comment in it is closed, and none is that
was not opened. -/
def nestsAsComment : Nat → List Char → Bool
  | depth, '/' :: '*' :: rest => nestsAsComment (depth + 1) rest
  | 0, '*' :: '/' :: _ => false
  | depth + 1, '*' :: '/' :: rest => nestsAsComment depth rest
  | depth, _ :: rest => nestsAsComment depth rest
  | depth, [] => depth == 0

/-- How a text is written as a comment: the marks before it on a line of its own and in a block,
and the characters that neither form can start with. -/
structure CommentForm where
  /-- The marks on a line. -/
  line : String
  /-- The marks that open a block. -/
  block : String
  /-- What a text on a line cannot start with. -/
  notOnLine : List Char
  /-- What a text in a block cannot start with. -/
  notInBlock : List Char

/-- The comment with this text, if it can be one. -/
def commentDoc? (form : CommentForm) (text : String) : Option Doc :=
  let cs := text.toList
  let startsWithOneOf (marks : List Char) : Bool := (cs.head?.map marks.contains).getD false
  if !cs.contains '\n' && !startsWithOneOf form.notOnLine then
    some (word (form.line ++ String.ofList (withoutEndBlanks cs)) ++ hardBreak)
  else if nestsAsComment 0 cs && !startsWithOneOf form.notInBlock then
    some (word (form.block ++ String.ofList (withoutLineEndBlanks [] cs) ++ "*/") ++ hardBreak)
  else none

/-- The form of documentation of what follows. -/
def outerDoc : CommentForm := ⟨"///", "/**", ['/'], ['*', '/']⟩

/-- The form of documentation of what is around. -/
def innerDoc : CommentForm := ⟨"//!", "/*!", [], []⟩

/-- The form of a comment. -/
def plainComment : CommentForm := ⟨"//", "/*", [], ['*', '!']⟩

/-- The name and the text of an attribute that gives a text. -/
def textAttribute? : Node → Option (String × String)
  | .metaValue (.path false [.segment name none]) (.literal text) =>
    (Literal.textValue? text).map (name, ·)
  | _ => none

/-- The comment that an attribute stands for, if it can be written as one. -/
def comment? (inner : Bool) (content : Node) : Option Doc :=
  match textAttribute? content with
  | some ("doc", text) => commentDoc? (if inner then innerDoc else outerDoc) text
  | some ("comment", text) => commentDoc? plainComment text
  | _ => none

/-! ## Attributes in brackets -/

/-- What was written last of the tokens of an attribute. -/
inductive Written where
  /-- A word or literal. -/
  | word
  /-- A mark or bracket. -/
  | mark
  /-- A comma at the end of a group. -/
  | lastComma
deriving DecidableEq, Repr

mutual

/-- A token of an attribute behind what was written before; `last` when its group ends with it. -/
def attributeToken (written : Written) (last : Bool) : Token → Doc × Written
  | .word text | .literal text => ((if written = .word then space else []) ++ word text, .word)
  | .lifetime text => (word text, .word)
  | .mark c _ =>
    if c = ',' ∧ last then (commaEnd, .lastComma)
    else
      let before := if written = .word ∧ c = '=' then word " " else []
      let behind := if c = '=' then word " " else if c = ',' then space else []
      (before ++ word (String.singleton c) ++ behind, .mark)
  | .group bracket body =>
    let (inside, ending) := attributeTokens .mark body
    let doc :=
      if bracket = .round then
        word "(" ++ stacked indent
          (dedent (zeroBreak ++ inside ++ if ending = .lastComma then [] else zeroBreak)) ++
          word ")"
      else
        word (String.singleton bracket.opening) ++ inside ++
          word (String.singleton bracket.closing)
    (doc, .mark)

/-- The tokens of an attribute behind what was written before. -/
def attributeTokens (written : Written) : List Token → Doc × Written
  | [] => ([], written)
  | token :: rest =>
    let (doc, written) := attributeToken written rest.isEmpty token
    let (docs, written) := attributeTokens written rest
    (doc ++ docs, written)

end

/-- The body of an attribute. -/
def attributeBody (below : Layouts) : Node → Doc
  | .metaList route bracket tokens =>
    plainPath below route ++ (attributeToken .mark true (.group bracket tokens)).1
  | .metaValue route value => plainPath below route ++ word " = " ++ below.expression false value
  | route => plainPath below route

/-- An attribute. -/
def oneAttribute (below : Layouts) : Node → Doc
  | .attr inner content =>
    (comment? inner content).getD
      (word (if inner then "#![" else "#[") ++ attributeBody below content ++ word "]" ++ space)
  | _ => []

/-- Attributes one behind the other. -/
def attributes (below : Layouts) (nodes : List Node) : Doc :=
  nodes.flatMap (oneAttribute below)

/-- What stands behind its attributes. -/
def attributed (below : Layouts) (subject : Node → Doc) : Node → Doc
  | .attributed nodes node => attributes below nodes ++ subject node
  | node => subject node

end Slotwise.Code.Layout
