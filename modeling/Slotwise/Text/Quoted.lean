import Slotwise.Text.CodePoint
import Slotwise.Text.ConcealedTable
/-!
# Quoted texts

Two ways to write a text between double quotes with backslash escapes: for a message, and as a
string literal of generated code. They differ in how a null character before an octal digit is
written, since a reader may take the digit into the escape.
-/

namespace Slotwise.Text

/-- Whether the character is shown by its code point in a quoted text. -/
def isConcealed (c : Char) : Bool :=
  if c.toNat < 128 then c.toNat < 32 || c.toNat == 127 else inRanges concealedRanges c

/-- The escape of a character by its code point in lower case hexadecimal digits. -/
def codePointEscape (c : Char) : List Char :=
  ['\\', 'u', '{'] ++ Nat.toDigits 16 c.toNat ++ ['}']

/-- The escaped form of a character other than the null character. -/
def escapedChar (c : Char) : List Char :=
  match c with
  | '\t' => ['\\', 't']
  | '\n' => ['\\', 'n']
  | '\r' => ['\\', 'r']
  | '"' => ['\\', '"']
  | '\\' => ['\\', '\\']
  | c => if isConcealed c then codePointEscape c else [c]

/-- The text of a message, a null character written as one escape. -/
def messageChars : List Char → List Char
  | [] => []
  | c :: rest =>
    (if c = '\x00' then ['\\', '0'] else escapedChar c) ++ messageChars rest

/-- The body of a string literal, a null character before an octal digit written with two digits. -/
def literalChars : List Char → List Char
  | [] => []
  | c :: rest =>
    (if c = '\x00' then
      match rest with
      | d :: _ => if '0' ≤ d && d ≤ '7' then ['\\', 'x', '0', '0'] else ['\\', '0']
      | [] => ['\\', '0']
    else escapedChar c) ++ literalChars rest

/-- The text between double quotes as a message shows it. -/
def quoteMessage (s : String) : String :=
  String.ofList ('"' :: messageChars s.toList ++ ['"'])

/-- The text as a string literal of generated code. -/
def quoteLiteral (s : String) : String :=
  String.ofList ('"' :: literalChars s.toList ++ ['"'])

/-- The texts as a message shows a list of them. -/
def quoteMessageList (ss : List String) : String :=
  "[" ++ ", ".intercalate (ss.map quoteMessage) ++ "]"

end Slotwise.Text
