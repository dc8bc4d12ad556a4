/-!
# Scanning configurations

A scanner takes characters from the front of a text and answers what it read, or fails. Here are the
scanners for what stands between values: blanks, line ends and comments.
-/

namespace Slotwise.Configuration

/-- A scanner of characters. -/
abbrev Scanner (α : Type) := StateT (List Char) Option α

namespace Scanner

/-- The next character, which stays. -/
def peek? : Scanner (Option Char) := do
  return (← get).head?

/-- Whether the text goes on with these characters. -/
def startsWith (text : String) : Scanner Bool := do
  return text.toList.isPrefixOf (← get)

/-- Takes these characters. -/
def exactly (text : String) : Scanner Unit := do
  if ← startsWith text then set ((← get).drop text.length) else failure

/-- Takes these characters if they come next, and answers whether they did. -/
def exactly? (text : String) : Scanner Bool := do
  if ← startsWith text then
    exactly text
    return true
  else return false

/-- Takes one character that satisfies the predicate. -/
def one (p : Char → Bool) : Scanner Char := do
  match ← get with
  | c :: rest => if p c then set rest; return c else failure
  | [] => failure

/-- Takes all characters up to one that does not satisfy the predicate. -/
def takeWhile (p : Char → Bool) : Scanner (List Char) := do
  let cs ← get
  set (cs.dropWhile p)
  return cs.takeWhile p

/-- Takes a number of characters that satisfy the predicate. -/
def exactlyMany (p : Char → Bool) : Nat → Scanner (List Char)
  | 0 => return []
  | n + 1 => do
    let c ← one p
    return c :: (← exactlyMany p n)

/-- What the scanner answers, and nothing taken where it fails. -/
def attempt {α : Type} (scanner : Scanner α) : Scanner (Option α) := fun cs =>
  match scanner cs with
  | some (x, rest) => some (some x, rest)
  | none => some (none, cs)

/-- Passes if the condition holds. -/
def require (condition : Bool) : Scanner Unit :=
  if condition then return () else failure

/-- Repeats a scanner that answers whether to go on, at most `bound` times, and gathers what it
adds. -/
def repeatBelow {α : Type} (step : Scanner (Option (List α))) : Nat → Scanner (List α)
  | 0 => failure
  | bound + 1 => do
    match ← step with
    | none => return []
    | some xs => return xs ++ (← repeatBelow step bound)

/-- Repeats a scanner that takes characters until it answers nothing. -/
def repeated {α : Type} (step : Scanner (Option (List α))) : Scanner (List α) := do
  repeatBelow step ((← get).length + 1)

/-! ## Between values -/

/-- Whether the character is a blank within a line. -/
def isSpace (c : Char) : Bool := c = ' ' || c = '\t'

/-- Whether the character may stand in a comment. -/
def isComment (c : Char) : Bool :=
  c = '\t' || ('\x20' ≤ c && c ≠ '\x7f')

/-- Takes the blanks within a line. -/
def spaces : Scanner Unit := do
  let _ ← takeWhile isSpace

/-- Takes a line end if one comes next, and answers whether it did. -/
def lineEnd? : Scanner Bool := do
  if ← exactly? "\n" then return true else exactly? "\r\n"

/-- Takes a comment if one comes next. -/
def comment : Scanner Unit := do
  if ← exactly? "#" then
    let _ ← takeWhile isComment

/-- Takes what may stand behind a value on its line, and the line end. -/
def restOfLine : Scanner Unit := do
  spaces
  comment
  if !(← lineEnd?) then require (← get).isEmpty

/-- Takes blanks, comments and line ends. A comment goes on to the end of its line. -/
def gap : Scanner Unit := do
  let _ ← repeated (α := Unit) do
    spaces
    if ← lineEnd? then return some []
    else if ← startsWith "#" then
      comment
      if ← lineEnd? then return some [] else failure
    else return none

end Scanner

end Slotwise.Configuration
