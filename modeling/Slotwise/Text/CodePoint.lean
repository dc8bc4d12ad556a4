/-!
# Membership in code point tables

Tables of Unicode properties come as inclusive ranges, or as runs that take every `step`-th code
point. The functions here say when a character lies in such a table.
-/

namespace Slotwise.Text

/-- Whether the character lies in one of the inclusive ranges. -/
def inRanges (ranges : List (Nat × Nat)) (c : Char) : Bool :=
  ranges.any fun (first, last) => first ≤ c.toNat && c.toNat ≤ last

/-- Whether the code point lies on the run that takes every `step`-th code point. -/
def onRun (first last step n : Nat) : Bool :=
  first ≤ n && n ≤ last && (n - first) % step == 0

/-- Whether the character lies on one of the runs. -/
def onRuns (runs : List (Nat × Nat × Nat)) (c : Char) : Bool :=
  runs.any fun (first, last, step) => onRun first last step c.toNat

/-- The image of the character under the first mapping run that holds it. -/
def runImage? (runs : List (Nat × Nat × Nat × Nat)) (c : Char) : Option Char :=
  runs.findSome? fun (first, last, step, image) =>
    if onRun first last step c.toNat then some (Char.ofNat (image + (c.toNat - first))) else none

@[simp] theorem inRanges_nil (c : Char) : inRanges [] c = false := rfl

@[simp] theorem onRuns_nil (c : Char) : onRuns [] c = false := rfl

end Slotwise.Text
