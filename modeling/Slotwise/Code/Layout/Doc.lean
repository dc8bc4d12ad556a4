/-!
# Text with possible line breaks

A document is a sequence of texts, of places where a line may end, and of groups of those. A group
that fits on the line keeps all its places on it. In a group that does not fit, either every place
ends a line or only those behind which the next part does not fit.

The functions here build documents; `Slotwise.Code.Layout.Page` decides where lines end. Groups are
built by `stacked` and `filled`, which leave out what cannot matter: a group of one place is
nothing, and a place that waits for a next part is nothing at the end of its group.
-/

namespace Slotwise.Code.Layout

/-- The indentation of one level. -/
def indent : Int := 4

/-- A place where a line may end. -/
structure Place where
  /-- The blanks that stand here when the line goes on. -/
  blanks : Nat
  /-- What the indentation of the next line differs by from that of the group. -/
  offset : Int := 0
  /-- The text before the end of the line. -/
  before : String := ""
  /-- The text at the beginning of the next line. -/
  after : String := ""
  /-- The text that stands here when the line goes on. -/
  inline : String := ""
  /-- Whether the place needs a part behind it in its group. -/
  waits : Bool := false
  /-- Whether the line never ends here. -/
  never : Bool := false
deriving Repr

/-- A part of a document. -/
inductive Part where
  /-- A text on one line. -/
  | text (value : String)
  /-- Nothing, and too wide for any line. -/
  | strut
  /-- A place where a line may end. -/
  | place (value : Place)
  /-- A group. When it does not fit, the indentation changes by `offset` inside of it, and `every`
  tells whether every place ends a line. -/
  | group (offset : Int) (every : Bool) (body : List Part)
deriving Repr

/-- A document. -/
abbrev Doc := List Part

/-- The width that no line has. -/
def tooWide : Nat := 65535

namespace Doc

/-! ## Texts and places -/

/-- A text. -/
def word (text : String) : Doc :=
  [.text text]

/-- A place without blanks. -/
def zeroBreak : Doc :=
  [.place { blanks := 0 }]

/-- A place with one blank. -/
def space : Doc :=
  [.place { blanks := 1 }]

/-- A place where the line always ends. -/
def hardBreak : Doc :=
  [.place { blanks := tooWide }]

/-- A place with one blank, if a part follows in its group. -/
def spaceIfMore : Doc :=
  [.place { blanks := 1, waits := true }]

/-- A place where the line always ends, if a part follows in its group. -/
def hardBreakIfMore : Doc :=
  [.place { blanks := tooWide, waits := true }]

/-- A place where the line never ends, so that what is before it is measured up to here. -/
def measureHere : Doc :=
  [.place { blanks := 0, never := true }]

/-- The end of a list: a comma when the line ends here. -/
def commaEnd : Doc :=
  [.place { blanks := 0, before := "," }]

/-- The end of a list with one blank behind it: a comma when the line ends here. -/
def commaSpaceEnd : Doc :=
  [.place { blanks := 1, before := "," }]

/-! ## Groups -/

/-- The document without a waiting place at its end. -/
def withoutWaiting : Doc → Doc
  | [] => []
  | [.place p] => if p.waits then [] else [.place p]
  | part :: rest => part :: withoutWaiting rest

/-- A group of these parts. -/
def group (offset : Int) (every : Bool) : Doc → Doc
  | [.place _] => []
  | body => [.group offset every (withoutWaiting body)]

/-- A group whose places all end a line when it does not fit. -/
def stacked (offset : Int) (body : Doc) : Doc :=
  group offset true body

/-- A group whose places end a line when the next part does not fit. -/
def filled (offset : Int) (body : Doc) : Doc :=
  group offset false body

/-- The document whose last place is indented by one level less, if it ends with a place. -/
def dedent : Doc → Doc
  | [] => []
  | [.place p] => [.place { p with offset := p.offset - indent }]
  | part :: rest => part :: dedent rest

mutual

/-- The width of a part on one line. -/
def partWidth : Part → Nat
  | .text value => value.utf8ByteSize
  | .strut => tooWide
  | .place p => p.blanks
  | .group _ _ body => width body

/-- The width of a document on one line. -/
def width : Doc → Nat
  | [] => 0
  | part :: rest => partWidth part + width rest

end

/-- A group whose places all end a line when it does not fit or is wider than `limit`. -/
def stackedWithin (limit : Nat) (offset : Int) (body : Doc) : Doc :=
  stacked offset (if width body > limit then body ++ [.strut] else body)

/-! ## Lists -/

/-- The documents one behind the other, with `between` in between. -/
def joined (between : Doc) : List Doc → Doc
  | [] => []
  | [doc] => doc
  | doc :: rest => doc ++ between ++ joined between rest

/-- The documents with commas between them, and `ending` behind the last one. -/
def listed (ending : Doc) (docs : List Doc) : Doc :=
  if docs.isEmpty then [] else joined (word "," ++ space) docs ++ ending

/-- What is indented between two brackets that stay on the outer lines. -/
def enclosed (opening : String) (body : Doc) (closing : String) : Doc :=
  word opening ++ stacked indent (dedent (zeroBreak ++ body)) ++ word closing

/-- A list between brackets. -/
def enclosedList (opening : String) (docs : List Doc) (closing : String) : Doc :=
  enclosed opening (listed commaEnd docs) closing

/-- The elements of a tuple between brackets; one alone has a comma behind it. -/
def enclosedTuple (docs : List Doc) : Doc :=
  match docs with
  | [doc] => enclosed "(" (doc ++ word "," ++ zeroBreak) ")"
  | docs => enclosedList "(" docs ")"

/-- The document, if there is one. -/
def ofOption (doc : Option Doc) : Doc :=
  doc.getD []

/-- The words with a blank behind each. -/
def ofWords (texts : List String) : Doc :=
  texts.map fun text => Part.text (text ++ " ")

end Doc

end Slotwise.Code.Layout
