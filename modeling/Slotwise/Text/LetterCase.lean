import Slotwise.Text.CodePoint
import Slotwise.Text.LetterCaseTable
/-!
# Letter case

The Unicode properties `Uppercase` and `Lowercase` and the full case mappings of single characters,
with ASCII decided without a table.
-/

namespace Slotwise.Text

/-- Whether the character has the Unicode property `Uppercase`. -/
def isUpper (c : Char) : Bool :=
  if c.toNat < 128 then 'A' ≤ c && c ≤ 'Z' else onRuns upperRuns c

/-- Whether the character has the Unicode property `Lowercase`. -/
def isLower (c : Char) : Bool :=
  if c.toNat < 128 then 'a' ≤ c && c ≤ 'z' else onRuns lowerRuns c

/-- The lower case image of the character. -/
def toLower (c : Char) : List Char :=
  if c.toNat < 128 then [c.toLower]
  else match toLowerLong.lookup c.toNat with
    | some image => image.map Char.ofNat
    | none => [(runImage? toLowerRuns c).getD c]

/-- The upper case image of the character. -/
def toUpper (c : Char) : List Char :=
  if c.toNat < 128 then [c.toUpper]
  else match toUpperLong.lookup c.toNat with
    | some image => image.map Char.ofNat
    | none => [(runImage? toUpperRuns c).getD c]

theorem toLower_of_ascii {c : Char} (h : c.toNat < 128) : toLower c = [c.toLower] := by
  simp [toLower, h]

theorem toUpper_of_ascii {c : Char} (h : c.toNat < 128) : toUpper c = [c.toUpper] := by
  simp [toUpper, h]

end Slotwise.Text
