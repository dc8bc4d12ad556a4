import Slotwise.Configuration.Scanner
import Slotwise.Document
/-!
# Scalars and keys of configurations

Texts in four kinds of quotes, truth values, numbers and dates. Of the numbers only the natural ones
count for the model; all others and the dates are one value.
-/

namespace Slotwise.Configuration

open Scanner

/-! ## Texts -/

/-- Whether the character may stand in a text as it is. -/
def isTextChar (c : Char) : Bool :=
  c = '\t' || ('\x20' ≤ c && c ≠ '\x7f')

/-- The value of a hexadecimal digit. -/
def hexValue (c : Char) : Nat :=
  if c.isDigit then c.toNat - '0'.toNat
  else if 'a' ≤ c then c.toNat - 'a'.toNat + 10
  else c.toNat - 'A'.toNat + 10

/-- Whether the character is a hexadecimal digit. -/
def isHex (c : Char) : Bool :=
  c.isDigit || ('a' ≤ c && c ≤ 'f') || ('A' ≤ c && c ≤ 'F')

/-- Whether the character is an octal digit. -/
def isOctal (c : Char) : Bool := '0' ≤ c && c ≤ '7'

/-- Whether the character is a binary digit. -/
def isBinary (c : Char) : Bool := c = '0' || c = '1'

/-- The number that digits of a base stand for. -/
def ofDigits (base : Nat) (digits : List Char) : Nat :=
  digits.foldl (fun n c => n * base + hexValue c) 0

/-- The character with the code point of so many hexadecimal digits. -/
def codePoint (digits : Nat) : Scanner Char := do
  let n := ofDigits 16 (← exactlyMany isHex digits)
  if h : n.isValidChar then return Char.ofNatAux n h else failure

/-- The character that an escape stands for, behind its backslash. -/
def escape : Scanner Char := do
  match ← one fun _ => true with
  | 'b' => return '\x08'
  | 't' => return '\t'
  | 'n' => return '\n'
  | 'f' => return '\x0c'
  | 'r' => return '\r'
  | '"' => return '"'
  | '\\' => return '\\'
  | 'u' => codePoint 4
  | 'U' => codePoint 8
  | _ => failure

/-- A text on one line with escapes, behind its opening quote. -/
def basicBody : Scanner (List Char) :=
  repeated do
    if ← exactly? "\"" then return none
    else if ← exactly? "\\" then return some [← escape]
    else return some [← one isTextChar]

/-- A text on one line as it is, behind its opening quote. -/
def literalBody : Scanner (List Char) := do
  let body ← takeWhile fun c => isTextChar c && c ≠ '\''
  exactly "'"
  return body

/-- What stands before the closing three quotes: up to two quotes that belong to the text. The
answer is nothing when fewer than three quotes come next. -/
def closingQuotes? (quote : Char) : Scanner (Option (List Char)) := do
  let count := min ((← get).takeWhile (· == quote)).length 5
  if count < 3 then return none
  set ((← get).drop count)
  return some (List.replicate (count - 3) quote)

/-- A backslash at the end of a line with all blanks and line ends behind it. -/
def lineJoin : Scanner Unit := do
  exactly "\\"
  spaces
  require (← lineEnd?)
  let _ ← repeated (α := Unit) do
    spaces
    if ← lineEnd? then return some [] else return none

/-- One character of a text on several lines, or what stands for it. -/
def multilineStep (escapes : Bool) : Scanner (List Char) := do
  if ← lineEnd? then return ['\n']
  else if escapes && (← startsWith "\\") then
    match ← attempt lineJoin with
    | some _ => return []
    | none =>
      exactly "\\"
      return [← escape]
  else return [← one isTextChar]

/-- A text on several lines behind its opening quotes, at most `bound` steps of it. -/
def multilineBelow (quote : Char) (escapes : Bool) : Nat → Scanner (List Char)
  | 0 => failure
  | bound + 1 => do
    match ← closingQuotes? quote with
    | some quotes => return quotes
    | none => return (← multilineStep escapes) ++ (← multilineBelow quote escapes bound)

/-- A text on several lines behind its opening quotes. A line end right there does not count. -/
def multiline (quote : Char) (escapes : Bool) : Scanner (List Char) := do
  let _ ← lineEnd?
  multilineBelow quote escapes ((← get).length + 1)

/-- A text in any quotes, character by character. -/
def quotedBody : Scanner (List Char) := do
  if ← exactly? "\"\"\"" then multiline '"' true
  else if ← exactly? "'''" then multiline '\'' false
  else if ← exactly? "\"" then basicBody
  else
    exactly "'"
    literalBody

/-- A text in any quotes. -/
def quotedText : Scanner String := do
  return String.ofList (← quotedBody)

/-! ## Keys -/

/-- Whether the character may stand in a key without quotes. -/
def isBare (c : Char) : Bool :=
  c.isAlphanum || c = '_' || c = '-'

/-- One step of a key. -/
def simpleKey : Scanner String := do
  if ← exactly? "\"" then return String.ofList (← basicBody)
  else if ← exactly? "'" then return String.ofList (← literalBody)
  else
    let name ← takeWhile isBare
    require !name.isEmpty
    return String.ofList name

/-- How deeply values may nest, and how many steps a key may have. -/
def nestingLimit : Nat := 80

/-- The steps of a key with dots between them. -/
def key : Scanner (List String) := do
  spaces
  let first ← simpleKey
  spaces
  let rest ← repeated do
    if ← exactly? "." then
      spaces
      let name ← simpleKey
      spaces
      return some [name]
    else return none
  require ((first :: rest).length < nestingLimit)
  return first :: rest

/-! ## Numbers and dates -/

/-- Digits with single underscores between them. -/
def digits (isDigit : Char → Bool) : Scanner (List Char) := do
  let first ← one isDigit
  let rest ← repeated do
    if ← exactly? "_" then return some [← one isDigit]
    else
      match ← peek? with
      | some c => if isDigit c then return some [← one isDigit] else return none
      | none => return none
  return first :: rest

/-- A sign if there is one; the answer tells whether it is a minus. -/
def sign : Scanner Bool := do
  if ← exactly? "-" then return true
  else
    let _ ← exactly? "+"
    return false

/-- The integers of a configuration are below this number. -/
def integerBound : Nat := Nat.pow 2 63

/-- The value of an integer, refused when it is too great. -/
def integerValue (negative : Bool) (n : Nat) : Scanner Document := do
  require (n < integerBound || (negative && n == integerBound))
  return if negative && n ≠ 0 then .other else .natural n

/-- An integer in decimal digits, without zeros before it. -/
def decimal : Scanner (Bool × List Char) := do
  let negative ← sign
  if ← exactly? "0" then return (negative, ['0']) else return (negative, ← digits Char.isDigit)

/-- An integer. -/
def integer : Scanner Document := do
  let based (base : Nat) (isDigit : Char → Bool) : Scanner Document := do
    integerValue false (ofDigits base (← digits isDigit))
  if ← exactly? "0x" then based 16 isHex
  else if ← exactly? "0o" then based 8 isOctal
  else if ← exactly? "0b" then based 2 isBinary
  else
    let (negative, ds) ← decimal
    integerValue negative (ofDigits 10 ds)

/-- The exponent of a number. -/
def exponent : Scanner Unit := do
  let _ ← one fun c => c = 'e' || c = 'E'
  let _ ← sign
  let _ ← digits Char.isDigit

/-- A number with a fraction or an exponent, or none of the finite ones. -/
def fractional : Scanner Document := do
  let word ← attempt do
    let _ ← sign
    if !(← exactly? "inf") then exactly "nan"
  if word.isNone then
    let _ ← decimal
    if ← exactly? "." then
      let _ ← digits Char.isDigit
      let _ ← attempt exponent
    else exponent
  return .other

/-- A number of so many digits between two bounds. -/
def bounded (count first last : Nat) : Scanner Nat := do
  let n := ofDigits 10 (← exactlyMany Char.isDigit count)
  require (first ≤ n && n ≤ last)
  return n

/-- The number of days of a month. -/
def daysOf (year month : Nat) : Nat :=
  if month = 2 then
    if year % 4 = 0 && (year % 100 ≠ 0 || year % 400 = 0) then 29 else 28
  else if [4, 6, 9, 11].contains month then 30
  else 31

/-- A day. -/
def date : Scanner Unit := do
  let year ← bounded 4 0 9999
  exactly "-"
  let month ← bounded 2 1 12
  exactly "-"
  let _ ← bounded 2 1 (daysOf year month)

/-- A time of a day. -/
def time : Scanner Unit := do
  let _ ← bounded 2 0 23
  exactly ":"
  let _ ← bounded 2 0 59
  exactly ":"
  let _ ← bounded 2 0 60
  let _ ← attempt do
    exactly "."
    let fraction ← takeWhile Char.isDigit
    require !fraction.isEmpty

/-- The difference to the time of the prime meridian. -/
def offset : Scanner Unit := do
  let prime ← attempt (one fun c => c = 'Z' || c = 'z')
  if prime.isNone then
    let _ ← one fun c => c = '+' || c = '-'
    let _ ← bounded 2 0 23
    exactly ":"
    let _ ← bounded 2 0 59

/-- A date, a time or both. -/
def dateTime : Scanner Document := do
  let whole : Scanner Unit := do
    date
    let _ ← attempt do
      let _ ← one fun c => c = 'T' || c = 't' || c = ' '
      time
      let _ ← attempt offset
  whole <|> time
  return .other

/-- A truth value. -/
def flag : Scanner Document := do
  if ← exactly? "true" then return .flag true
  else
    exactly "false"
    return .flag false

/-- A value that is neither a list nor a table. -/
def scalar : Scanner Document := do
  match ← peek? with
  | some c =>
    if c = '"' || c = '\'' then return .text (← quotedText)
    else if c = 't' || c = 'f' then flag
    else if c.isDigit || c = '+' || c = '-' || c = 'i' || c = 'n' then
      dateTime <|> fractional <|> integer
    else failure
  | none => failure

end Slotwise.Configuration
