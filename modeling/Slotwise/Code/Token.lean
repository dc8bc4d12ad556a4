import Slotwise.Text.Quoted
/-!
# Token trees

Code as a sequence of token trees: words, punctuation marks, lifetimes, literals and bracketed
groups. A mark remembers whether the next mark follows at once, since `&&` and `& &` differ.

The flat form of a sequence writes every mark and every bracket as a token of its own; it is how
tokens are shown and compared.
-/

namespace Slotwise.Code

/-- The three kinds of brackets. -/
inductive Bracket where
  /-- Round brackets. -/
  | round
  /-- Square brackets. -/
  | square
  /-- Curly brackets. -/
  | curly
deriving DecidableEq, Repr

namespace Bracket

/-- The opening bracket. -/
def opening : Bracket → Char
  | round => '('
  | square => '['
  | curly => '\x7b'

/-- The closing bracket. -/
def closing : Bracket → Char
  | round => ')'
  | square => ']'
  | curly => '\x7d'

/-- The bracket that the character opens. -/
def ofOpening? (c : Char) : Option Bracket :=
  [round, square, curly].find? fun b => b.opening == c

end Bracket

/-- A token, or a bracketed group of tokens. -/
inductive Token where
  /-- An identifier or keyword, with its raw mark if it has one. -/
  | word (text : String)
  /-- A punctuation mark; `joint` when another mark follows at once. -/
  | mark (char : Char) (joint : Bool)
  /-- A lifetime, with its apostrophe. -/
  | lifetime (text : String)
  /-- A literal as written. -/
  | literal (text : String)
  /-- The tokens between a pair of brackets. -/
  | group (bracket : Bracket) (body : List Token)
deriving Repr

namespace Token

/-- The marks of an operator, all but the last joint to the next. -/
def marks : List Char → List Token
  | [] => []
  | [c] => [mark c false]
  | c :: rest => mark c true :: marks rest

/-- The marks of an operator. -/
def operator (text : String) : List Token :=
  marks text.toList

/-- A literal as it is shown: without the raw mark where that makes no difference. -/
def literalText (text : String) : String :=
  match text.toList with
  | 'r' :: '"' :: rest => if rest.contains '\\' then text else String.ofList ('"' :: rest)
  | _ => text

mutual

/-- The flat form of a token. -/
def flat : Token → List String
  | word text => [text]
  | mark c _ => [String.singleton c]
  | lifetime text => [text]
  | literal text => [literalText text]
  | group bracket body =>
    String.singleton bracket.opening :: (flatAll body ++ [String.singleton bracket.closing])

/-- The flat form of a sequence. -/
def flatAll : List Token → List String
  | [] => []
  | token :: rest => flat token ++ flatAll rest

end

/-- The flat form of a sequence as one line. -/
def flatText (tokens : List Token) : String :=
  " ".intercalate (flatAll tokens)

mutual

/-- The number of tokens in a token tree, brackets included. -/
def size : Token → Nat
  | group _ body => sizeAll body + 2
  | _ => 1

/-- The number of tokens in a sequence, brackets included. -/
def sizeAll : List Token → Nat
  | [] => 0
  | token :: rest => size token + sizeAll rest

end

@[simp] theorem flatAll_nil : flatAll [] = [] := rfl

@[simp] theorem flatAll_cons (token : Token) (rest : List Token) :
    flatAll (token :: rest) = flat token ++ flatAll rest := rfl

@[simp] theorem flatAll_append (xs ys : List Token) :
    flatAll (xs ++ ys) = flatAll xs ++ flatAll ys := by
  induction xs with
  | nil => rfl
  | cons x xs ih => simp [ih]

theorem length_flatAll_marks (cs : List Char) : (flatAll (marks cs)).length = cs.length := by
  fun_induction marks cs with
  | case1 => rfl
  | case2 c => rfl
  | case3 c rest _ ih => simp [flat, ih]

end Token

end Slotwise.Code
