import Slotwise.Code.Grammar
import Slotwise.Code.Layout.Item
import Slotwise.Code.Layout.Page
import Slotwise.Failure
/-!
# Files as text

The layouts of all forms tied together, and the text of a generated file. What is laid out is the
file that the tokens read back as, so the text shows how they will be understood. Each layout refers
to those one level deeper; between two levels with the same form there is one with a smaller form,
so the number of tokens bounds the depth that a file can need.
-/

namespace Slotwise.Code

namespace Layout

/-- The layouts of forms nested at most `depth` levels deep. -/
def Layouts.below : Nat → Layouts
  | 0 => ⟨fun _ => [], fun _ => [], fun _ => [], fun _ _ => [], fun _ _ => [], fun _ => [],
      fun _ => [], fun _ => []⟩
  | depth + 1 =>
    { type := fun node => Layout.type (below depth) node
      bound := fun node => Layout.bound (below depth) node
      pattern := fun node => Layout.pattern (below depth) node
      expression := fun beginning node => Layout.expression (below depth) beginning node
      link := fun beginning node => Layout.link (below depth) beginning node
      statements := fun nodes => Layout.statements (below depth) nodes
      item := fun node => Layout.item (below depth) false node
      member := fun node => Layout.item (below depth) true node }

/-- A file as a document. -/
def file (below : Layouts) (file : File) : Doc :=
  Doc.stacked 0 (attributes below file.attributes ++ file.items.flatMap below.item)

end Layout

namespace File

/-- The layout of a file as text. -/
def layout (file : File) : String :=
  (Layout.file (Layout.Layouts.below (4 * Token.sizeAll file.tokens + 16)) file).render

/-- What every generated file starts with. -/
def header : String :=
  "// This code was automatically generated by algebraic-gen. Do not edit manually.\n\n"

/-- The text of a generated file. -/
def render (file : File) : Except Failure String :=
  match File.ofTokens? file.tokens with
  | some read => return header ++ read.layout
  | none => throw .invalidCode

end File

end Slotwise.Code
