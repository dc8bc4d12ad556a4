import Slotwise.Text.CodePoint
import Slotwise.Text.IdentifierTable
/-!
# Identifiers

Which characters may start and continue an identifier. Main statement: a character that may start
an identifier may also continue one (`isXidContinue_of_startsIdentifier`).
-/

namespace Slotwise.Text

/-- Whether the character has the Unicode property `XID_Start`. -/
def isXidStart (c : Char) : Bool :=
  if c.toNat < 128 then c.isAlpha else inRanges identifierStarts c

/-- Whether the character has the Unicode property `XID_Continue`. -/
def isXidContinue (c : Char) : Bool :=
  isXidStart c ||
    (if c.toNat < 128 then c.isDigit || c == '_' else inRanges identifierMarks c)

/-- Whether the character may start an identifier. -/
def startsIdentifier (c : Char) : Bool :=
  c == '_' || isXidStart c

/-- Whether the text is an identifier, keywords included. -/
def isIdentifier (cs : List Char) : Bool :=
  match cs with
  | [] => false
  | c :: rest => startsIdentifier c && rest.all isXidContinue

theorem isXidContinue_of_isXidStart {c : Char} (h : isXidStart c) : isXidContinue c := by
  simp [isXidContinue, h]

theorem isXidContinue_of_startsIdentifier {c : Char} (h : startsIdentifier c) :
    isXidContinue c := by
  simp only [startsIdentifier, Bool.or_eq_true, beq_iff_eq] at h
  rcases h with h | h
  · subst h; decide
  · exact isXidContinue_of_isXidStart h

end Slotwise.Text
