import Slotwise.Code.Layout.Basic
/-!
# Layout of paths and bounds

Paths with their arguments and the bounds of types. Lifetimes come before all other arguments.
-/

namespace Slotwise.Code.Layout

open Doc

/-- How the arguments of a path are written. -/
inductive PathStyle where
  /-- Not at all. -/
  | plain
  /-- As in a type. -/
  | type
  /-- As in an expression, behind a pair of colons. -/
  | expression
deriving DecidableEq, Repr

/-! ## Arguments -/

/-- The nodes with all lifetimes first. -/
def lifetimesFirst (nodes : List Node) : List Node :=
  let isLifetime : Node → Bool
    | .lifetime _ => true
    | .parameter (.lifetime _) _ _ => true
    | .attributed _ (.parameter (.lifetime _) _ _) => true
    | _ => false
  nodes.filter isLifetime ++ nodes.filter (!isLifetime ·)

/-- The output of a function behind its arrow. -/
def output (below : Layouts) : Option Node → Doc
  | none => []
  | some type => word " -> " ++ below.type type

/-- Bounds with `+` between them; the line can end before each `+`. -/
def breakableBounds (bound : Node → Doc) (opening : String) : List Node → Doc
  | [] => []
  | first :: rest =>
    word opening ++ bound first ++ rest.flatMap fun node => space ++ word "+ " ++ bound node

/-- Bounds with `+` between them on one line. -/
def plainBounds (bound : Node → Doc) (bounds : List Node) : Doc :=
  joined (word " + ") (bounds.map bound)

/-- A lifetime with its bounds, without attributes. -/
def lifetimeParameter : Node → Doc
  | .parameter (.lifetime name) bounds _ =>
    let bound : Node → Doc
      | .lifetime other => word other
      | _ => []
    word name ++ (if bounds.isEmpty then [] else word ": ") ++ plainBounds bound bounds
  | _ => []

/-- Lifetimes bound by `for`. -/
def boundLifetimes : Option Node → Doc
  | some (.forLifetimes lifetimes _) =>
    word "for<" ++ joined (word ", ") (lifetimes.map fun node => lifetimeParameter node.bare) ++
      word "> "
  | _ => []

/-- A segment with the arguments of its own in a type. -/
def ownSegment (below : Layouts) (name : String) (arguments : Option Node) : Doc :=
  below.type (.path false [.segment name arguments])

/-- An argument between angle brackets. -/
def argument (below : Layouts) : Node → Doc
  | .lifetime name => word name
  | .associated name own value =>
    ownSegment below name own ++ word " = " ++
      match value with
      | .block .. => below.expression false value
      | _ => if isLiteral value then below.expression false value else below.type value
  | .constrained name own bounds =>
    ownSegment below name own ++ filled indent (breakableBounds below.bound ": " bounds)
  | .block words body => below.expression false (.block words body)
  | node => if isLiteral node then below.expression false node else below.type node

/-- The arguments of a segment. -/
def arguments (below : Layouts) (style : PathStyle) : Node → Doc
  | .angled _ nodes _ =>
    if nodes.isEmpty || style == .plain then []
    else
      enclosedList (if style == .expression then "::<" else "<")
        ((lifetimesFirst nodes).map (argument below)) ">"
  | .callable inputs _ result =>
    stacked indent
      (dedent (word "(" ++ zeroBreak ++ listed commaEnd (inputs.map below.type)) ++ word ")" ++
        output below result)
  | _ => []

/-! ## Paths and bounds -/

/-- A segment of a path. -/
def segment (below : Layouts) (style : PathStyle) : Node → Doc
  | .segment name none => word name
  | .segment name (some node) => word name ++ arguments below style node
  | _ => []

/-- The segments of a path with what stands before it. -/
def segments (below : Layouts) (style : PathStyle) (rooted : Bool) (nodes : List Node) : Doc :=
  (if rooted then word "::" else []) ++ joined (word "::") (nodes.map (segment below style))

/-- A path without the arguments of its segments. -/
def plainPath (below : Layouts) : Node → Doc
  | .path rooted nodes => segments below .plain rooted nodes
  | _ => []

/-- A path, or a path that starts from a type. -/
def path (below : Layouts) (style : PathStyle) : Node → Doc
  | .path rooted nodes => segments below style rooted nodes
  | .projected self asTrait nodes =>
    word "<" ++ below.type self ++
      (match asTrait with
        | some (.path rooted trait) => word " as " ++ segments below .type rooted trait
        | _ => []) ++
      word ">" ++ nodes.flatMap fun node => word "::" ++ segment below style node
  | _ => []

/-- A bound of a type. -/
def bound (below : Layouts) : Node → Doc
  | .lifetime name => word name
  | .bound parens maybe lifetimes route =>
    let body :=
      boundLifetimes lifetimes ++ (if maybe then word "?" else []) ++ path below .type route
    if parens then word "(" ++ body ++ word ")" else body
  | .path _ [.segment "use" (some (.angled _ captured _))] =>
    word "use<" ++ joined (word ", ") (captured.map (argument below)) ++ word ">"
  | .verbatim tokens => word (tokenText tokens)
  | _ => []

end Slotwise.Code.Layout
