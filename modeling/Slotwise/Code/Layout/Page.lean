import Slotwise.Code.Layout.Doc
/-!
# Where lines end

A document is measured from its end: the measure of a group is its width and what follows up to the
next place outside of it, the measure of a place is its blanks and what follows up to the next place
of its group. Then the document is written part by part; a group fits, and a place of a filled group
keeps the line, when its measure is at most the room left on the line.

Widths are bytes. A line has 89 of them, but never fewer than 60 behind its indentation.
-/

namespace Slotwise.Code.Layout

/-- The width of a line. -/
def lineWidth : Int := 89

/-- The width that a line has behind its indentation in any case. -/
def leastRoom : Int := 60

/-- A part of a document with its measure. -/
inductive Measured where
  /-- A text. -/
  | text (value : String)
  /-- Nothing, where it stands. -/
  | strut
  /-- A place. -/
  | place (value : Place) (size : Nat)
  /-- A group. -/
  | group (offset : Int) (every : Bool) (size : Nat) (body : List Measured)
deriving Repr

/-! ## Measuring -/

/-- A measured document: how far it is to the next place, and the width of all. -/
structure Measurement where
  /-- The measured parts. -/
  parts : List Measured
  /-- The width up to the next place outside of all groups of the document. -/
  ahead : Nat
  /-- The width of the whole document. -/
  width : Nat

namespace Measurement

mutual

/-- A part in front of a measured document. -/
def cons (part : Part) (rest : Measurement) : Measurement :=
  match part with
  | .text value =>
    let size := value.utf8ByteSize
    ⟨.text value :: rest.parts, size + rest.ahead, size + rest.width⟩
  | .strut => ⟨.strut :: rest.parts, tooWide + rest.ahead, tooWide + rest.width⟩
  | .place p => ⟨.place p (p.blanks + rest.ahead) :: rest.parts, 0, p.blanks + rest.width⟩
  | .group offset every body =>
    let inside := ofDoc body rest.ahead
    ⟨.group offset every (inside.width + rest.ahead) inside.parts :: rest.parts,
      inside.width + rest.ahead, inside.width + rest.width⟩

/-- The measured document, when the next place behind it is `ahead` away. -/
def ofDoc (doc : List Part) (ahead : Nat) : Measurement :=
  match doc with
  | [] => ⟨[], ahead, 0⟩
  | part :: rest => cons part (ofDoc rest ahead)

end

end Measurement

/-! ## Writing -/

/-- How the group around a part is written. -/
inductive Mode where
  /-- On one line. -/
  | flat
  /-- With a new line at every place. -/
  | everyPlace
  /-- With a new line where the next part does not fit. -/
  | asNeeded
deriving DecidableEq, Repr

/-- The text written so far and the line that it ends in. -/
structure Page where
  /-- The text. -/
  text : String := ""
  /-- The blanks that stand before the next text. -/
  pending : Nat := 0
  /-- The room left on the line. -/
  room : Int := lineWidth
deriving Repr

namespace Page

/-- The page with the blanks written that were pending. -/
def settled (page : Page) : Page :=
  { page with text := page.text.pushn ' ' page.pending, pending := 0 }

/-- The page with a text written. -/
def write (page : Page) (value : String) : Page :=
  let page := page.settled
  { page with text := page.text ++ value, room := page.room - value.utf8ByteSize }

/-- The page with a place written that does not end the line. -/
def goOn (page : Page) (place : Place) : Page :=
  { text := page.text ++ place.inline
    pending := page.pending + place.blanks
    room := page.room - place.blanks - place.inline.utf8ByteSize }

/-- The page with a place written that ends the line, in a group with this indentation. -/
def newLine (page : Page) (place : Place) (indentation : Int) : Page :=
  let text := if place.before.isEmpty then page.text else page.settled.text ++ place.before
  let indentation := indentation + place.offset
  let next : Page :=
    { text := text.push '\n'
      pending := indentation.toNat
      room := max (lineWidth - indentation) leastRoom }
  if place.after.isEmpty then next else next.write place.after

/-- Whether the line goes on at a place of this measure. -/
def staysOn (page : Page) (mode : Mode) (place : Place) (size : Nat) : Bool :=
  place.never ||
    match mode with
    | .flat => true
    | .everyPlace => false
    | .asNeeded => size ≤ page.room

mutual

/-- The page with a part written, in a group with this mode and indentation. -/
def add (page : Page) (mode : Mode) (indentation : Int) : Measured → Page
  | .text value => page.write value
  | .strut => page.settled
  | .place p size =>
    if page.staysOn mode p size then page.goOn p else page.newLine p indentation
  | .group offset every size body =>
    if size ≤ page.room then page.addAll .flat indentation body
    else
      page.addAll (if every then .everyPlace else .asNeeded) (indentation + offset) body

/-- The page with the parts written, in a group with this mode and indentation. -/
def addAll (page : Page) (mode : Mode) (indentation : Int) : List Measured → Page
  | [] => page
  | part :: rest => (page.add mode indentation part).addAll mode indentation rest

end

end Page

/-- The text of a document. -/
def Doc.render (doc : Doc) : String :=
  (({} : Page).addAll .asNeeded 0 (Measurement.ofDoc doc 0).parts).text

end Slotwise.Code.Layout
