import Slotwise.Text.Identifier
/-!
# Literals

Recognition of literals at the beginning of a text: string, byte string, null-terminated string,
byte, character, floating point and integer literals, each with an optional suffix. A recognizer
answers what follows the literal, or nothing when the text does not start with one.
-/

namespace Slotwise.Code.Literal

/-! ## Words -/

/-- What follows the identifier at the beginning of the text. -/
def afterIdentifier? : List Char → Option (List Char)
  | [] => none
  | c :: rest => if Text.startsIdentifier c then some (rest.dropWhile Text.isXidContinue) else none

/-- What follows the suffix at the beginning of the text, if there is one. -/
def afterSuffix (cs : List Char) : List Char :=
  (afterIdentifier? cs).getD cs

/-- What follows `start` at the beginning of the text. -/
def after? (start : String) (cs : List Char) : Option (List Char) :=
  if start.toList.isPrefixOf cs then some (cs.drop start.length) else none

/-! ## Texts between quotes -/

/-- The kinds of texts between quotes. -/
inductive Quotation where
  /-- A text of characters. -/
  | text
  /-- A text of bytes. -/
  | bytes
  /-- A text of characters that ends with a null character. -/
  | terminated
deriving DecidableEq

/-- The hexadecimal value of a digit. -/
def hexValue? (c : Char) : Option Nat :=
  if c.isDigit then some (c.toNat - '0'.toNat)
  else if 'a' ≤ c && c ≤ 'f' then some (10 + (c.toNat - 'a'.toNat))
  else if 'A' ≤ c && c ≤ 'F' then some (10 + (c.toNat - 'A'.toNat))
  else none

/-- What follows the two digits of an escape by number. -/
def afterHexPair? (quotation : Quotation) : List Char → Option (List Char)
  | a :: b :: rest =>
    match hexValue? a, hexValue? b with
    | some x, some y =>
      match quotation with
      | .text => if x < 8 then some rest else none
      | .bytes => some rest
      | .terminated => if x = 0 ∧ y = 0 then none else some rest
    | _, _ => none
  | _ => none

/-- The value of an escape by code point, and what follows its closing bracket. `count` digits with
value `value` came before. -/
def codePoint? (count value : Nat) : List Char → Option (Nat × List Char)
  | [] => none
  | c :: rest =>
    match hexValue? c with
    | some digit => if count = 6 then none else codePoint? (count + 1) (16 * value + digit) rest
    | none =>
      if count = 0 then none
      else if c = '_' then codePoint? count value rest
      else if c = '\x7d' then some (value, rest)
      else none

/-- What follows an escape by code point after its letter. -/
def afterCodePoint? (quotation : Quotation) : List Char → Option (List Char)
  | '\x7b' :: rest =>
    match codePoint? 0 0 rest with
    | some (value, rest) =>
      if value.isValidChar ∧ ¬ (quotation = .terminated ∧ value = 0) then some rest else none
    | none => none
  | _ => none

/-- What follows an escape, a line break excepted, after its backslash. -/
def afterEscape? (quotation : Quotation) : List Char → Option (List Char)
  | 'x' :: rest => afterHexPair? quotation rest
  | 'u' :: rest => if quotation = .bytes then none else afterCodePoint? quotation rest
  | '0' :: rest => if quotation = .terminated then none else some rest
  | c :: rest => if ['n', 'r', 't', '\\', '\'', '"'].contains c then some rest else none
  | [] => none

/-- What follows an escaped line break, which takes the blanks after it along. A carriage return
stands only before a line feed. -/
def afterLineBreak? : List Char → Option (List Char)
  | '\r' :: '\n' :: rest => afterLineBreak? ('\n' :: rest)
  | '\r' :: _ => none
  | c :: rest => if c = ' ' ∨ c = '\t' ∨ c = '\n' then afterLineBreak? rest else some (c :: rest)
  | [] => none
termination_by cs => cs.length

/-- What follows the closing quote of a text with escapes, suffix included. -/
def afterCooked? (quotation : Quotation) : Nat → List Char → Option (List Char)
  | 0, _ => none
  | fuel + 1, cs =>
    match cs with
    | [] => none
    | '"' :: rest => some (afterSuffix rest)
    | '\r' :: rest =>
      match rest with
      | '\n' :: rest => afterCooked? quotation fuel rest
      | _ => none
    | '\\' :: rest =>
      match rest with
      | '\n' :: _ | '\r' :: _ => (afterLineBreak? rest).bind (afterCooked? quotation fuel)
      | _ => (afterEscape? quotation rest).bind (afterCooked? quotation fuel)
    | c :: rest =>
      match quotation with
      | .text => afterCooked? quotation fuel rest
      | .bytes => if c.toNat < 128 then afterCooked? quotation fuel rest else none
      | .terminated => if c = '\x00' then none else afterCooked? quotation fuel rest

/-- What follows the closing quote of a raw text whose quotes carry these hash marks. -/
def afterRawBody? (quotation : Quotation) (hashes : List Char) : List Char → Option (List Char)
  | [] => none
  | '"' :: rest =>
    if hashes.isPrefixOf rest then some (afterSuffix (rest.drop hashes.length))
    else afterRawBody? quotation hashes rest
  | '\r' :: '\n' :: rest => afterRawBody? quotation hashes rest
  | '\r' :: _ => none
  | c :: rest =>
    if quotation = .bytes ∧ 128 ≤ c.toNat then none
    else if quotation = .terminated ∧ c = '\x00' then none
    else afterRawBody? quotation hashes rest

/-- What follows a raw text after its letters. -/
def afterRaw? (quotation : Quotation) (cs : List Char) : Option (List Char) :=
  let hashes := cs.takeWhile (· = '#')
  match cs.dropWhile (· = '#') with
  | '"' :: rest => if hashes.length ≤ 255 then afterRawBody? quotation hashes rest else none
  | _ => none

/-- What follows a text literal with this opening, with escapes or raw. -/
def afterText? (quotation : Quotation) (letter : String) (cs : List Char) :
    Option (List Char) :=
  match after? (letter ++ "\"") cs with
  | some rest => afterCooked? quotation (rest.length + 1) rest
  | none => (after? (letter ++ "r") cs).bind (afterRaw? quotation)

/-- What follows the closing apostrophe of a character or byte, suffix included. -/
def afterApostrophe? : List Char → Option (List Char)
  | '\'' :: rest => some (afterSuffix rest)
  | _ => none

/-- What follows a character or byte after its opening apostrophe. -/
def afterCharacter? (quotation : Quotation) : List Char → Option (List Char)
  | [] => none
  | '\\' :: rest => (afterEscape? quotation rest).bind afterApostrophe?
  | c :: rest =>
    if quotation = .bytes ∧ 128 ≤ c.toNat then none else afterApostrophe? rest

/-! ## Numbers -/

/-- What follows the suffix of a number, unless the number runs on into a word. -/
def afterNumberSuffix? (cs : List Char) : Option (List Char) :=
  match afterSuffix cs with
  | [] => some []
  | c :: rest => if Text.isXidContinue c then none else some (c :: rest)

/-- Whether the character is a decimal digit or an underscore. -/
def isDigitOrUnderscore (c : Char) : Bool :=
  c.isDigit || c == '_'

/-- What follows the exponent after its letter; nothing when no digit comes. -/
def afterExponent? (signed valued : Bool) : List Char → Option (List Char)
  | [] => if valued then some [] else none
  | c :: rest =>
    if c = '+' ∨ c = '-' then
      if valued then some (c :: rest)
      else if signed then none
      else afterExponent? true valued rest
    else if c.isDigit then afterExponent? signed true rest
    else if c = '_' then afterExponent? signed valued rest
    else if valued then some (c :: rest)
    else none

/-- What follows the digits of a floating point number, which has a dot or an exponent. -/
def afterFloatDigits? (cs : List Char) : Option (List Char) :=
  if (cs.head?.map Char.isDigit).getD false then
    match cs.dropWhile isDigitOrUnderscore with
    | '.' :: rest =>
      let next := rest.head?
      if next = some '.' || (next.map Text.startsIdentifier).getD false then none
      else
        let rest := rest.dropWhile isDigitOrUnderscore
        match rest with
        | 'e' :: after | 'E' :: after => some ((afterExponent? false false after).getD rest)
        | _ => some rest
    | 'e' :: rest | 'E' :: rest => afterExponent? false false rest
    | _ => none
  else none

/-- What follows the digits of an integer; `seen` says whether a digit came before. -/
def afterDigits? (base : Nat) (seen : Bool) : List Char → Option (List Char)
  | [] => if seen then some [] else none
  | c :: rest =>
    if c = '_' then
      if !seen && base == 10 then none else afterDigits? base seen rest
    else
      match hexValue? c with
      | some digit =>
        if digit < base then afterDigits? base true rest
        else if c.isDigit then none
        else if seen then some (c :: rest)
        else none
      | none => if seen then some (c :: rest) else none

/-- What follows the digits of an integer in any base. -/
def afterIntegerDigits? (cs : List Char) : Option (List Char) :=
  match cs with
  | '0' :: 'x' :: rest => afterDigits? 16 false rest
  | '0' :: 'o' :: rest => afterDigits? 8 false rest
  | '0' :: 'b' :: rest => afterDigits? 2 false rest
  | _ => afterDigits? 10 false cs

/-! ## The value of a text -/

/-- The characters up to the closing quote of a text with escapes. -/
def cookedValue? : Nat → List Char → Option (List Char)
  | 0, _ => none
  | fuel + 1, cs =>
    let escaped (c : Char) (rest : List Char) : Option (List Char) :=
      (cookedValue? fuel rest).map (c :: ·)
    match cs with
    | [] => none
    | '"' :: _ => some []
    | '\\' :: 'x' :: a :: b :: rest =>
      match hexValue? a, hexValue? b with
      | some x, some y => escaped (Char.ofNat (16 * x + y)) rest
      | _, _ => none
    | '\\' :: 'u' :: '\x7b' :: rest =>
      match codePoint? 0 0 rest with
      | some (value, rest) => escaped (Char.ofNat value) rest
      | none => none
    | '\\' :: '\n' :: rest | '\\' :: '\r' :: rest =>
      cookedValue? fuel (rest.dropWhile fun c => c = ' ' ∨ c = '\t' ∨ c = '\n' ∨ c = '\r')
    | '\\' :: 'n' :: rest => escaped '\n' rest
    | '\\' :: 'r' :: rest => escaped '\r' rest
    | '\\' :: 't' :: rest => escaped '\t' rest
    | '\\' :: '0' :: rest => escaped '\x00' rest
    | '\\' :: c :: rest => escaped c rest
    | '\r' :: '\n' :: rest => escaped '\n' rest
    | c :: rest => escaped c rest

/-- The characters of a raw text whose quotes carry these hash marks. -/
def rawValue? (hashes : List Char) : List Char → Option (List Char)
  | [] => none
  | '"' :: rest =>
    if hashes.isPrefixOf rest then some [] else (rawValue? hashes rest).map ('"' :: ·)
  | c :: rest => (rawValue? hashes rest).map (c :: ·)

/-- The value of a literal that is a text of characters. -/
def textValue? (literal : String) : Option String :=
  match literal.toList with
  | '"' :: rest => (cookedValue? (rest.length + 1) rest).map String.ofList
  | 'r' :: rest =>
    let hashes := rest.takeWhile (· = '#')
    match rest.dropWhile (· = '#') with
    | '"' :: body => (rawValue? hashes body).map String.ofList
    | _ => none
  | _ => none

/-! ## All literals -/

/-- What follows the literal at the beginning of the text. -/
def afterLiteral? (cs : List Char) : Option (List Char) :=
  afterText? .text "" cs
    <|> afterText? .bytes "b" cs
    <|> afterText? .terminated "c" cs
    <|> (after? "b'" cs).bind (afterCharacter? .bytes)
    <|> (after? "'" cs).bind (afterCharacter? .text)
    <|> (afterFloatDigits? cs).bind afterNumberSuffix?
    <|> (afterIntegerDigits? cs).bind afterNumberSuffix?

end Slotwise.Code.Literal
