import Slotwise.Ordered
/-!
# File paths

A path is kept as it was written, and compared by its components: repeated slashes, a slash at the
end and single dots do not count, a dot at the very beginning does. So `src`, `src/` and `src/.` are
one path, and `src/products/x` comes before `src-x/y`.

Main statement: splitting at slashes loses nothing (`joinSlashes_splitSlashes`).
-/

namespace Slotwise

/-- A path as it was written. -/
structure FilePath where
  /-- The text of the path. -/
  text : String
deriving DecidableEq, Repr

namespace FilePath

/-- One step of a path. -/
inductive Component where
  /-- The root of the file system. -/
  | root
  /-- A dot at the beginning of a path. -/
  | here
  /-- The directory above. -/
  | up
  /-- A named entry. -/
  | entry (name : String)
deriving DecidableEq, Repr

/-- The place of the component's form in the order of components. -/
def Component.rank : Component → Nat
  | .root => 0
  | .here => 1
  | .up => 2
  | .entry _ => 3

/-- The order of components: root, dot, double dot, and then names. -/
def Component.compare : Component → Component → Ordering
  | .entry a, .entry b => Ord.compare a b
  | a, b => Ord.compare a.rank b.rank

/-- The pieces between slashes; the first piece stands apart. -/
def splitSlashes : List Char → List Char × List (List Char)
  | [] => ([], [])
  | c :: rest =>
    if c = '/' then ([], (splitSlashes rest).1 :: (splitSlashes rest).2)
    else (c :: (splitSlashes rest).1, (splitSlashes rest).2)

/-- The pieces put back with a slash between them. -/
def joinSlashes (first : List Char) : List (List Char) → List Char
  | [] => first
  | next :: rest => first ++ '/' :: joinSlashes next rest

/-- The component that a piece between slashes stands for, if it counts. -/
def Component.ofPiece? (piece : List Char) : Option Component :=
  if piece = [] ∨ piece = ['.'] then none
  else if piece = ['.', '.'] then some .up
  else some (.entry (String.ofList piece))

/-- The components of the path. -/
def components (path : FilePath) : List Component :=
  let (first, others) := splitSlashes path.text.toList
  let start : List Component :=
    if path.text.toList.head? = some '/' then [.root]
    else if first = ['.'] then [.here]
    else []
  start ++ (first :: others).filterMap Component.ofPiece?

/-- The order of paths by their components. -/
def compare (p₁ p₂ : FilePath) : Ordering :=
  Ordered.compareLists Component.compare p₁.components p₂.components

/-- Whether two paths have the same components. -/
def same (p₁ p₂ : FilePath) : Bool :=
  p₁.components == p₂.components

theorem joinSlashes_cons (c : Char) (first : List Char) (rest : List (List Char)) :
    joinSlashes (c :: first) rest = c :: joinSlashes first rest := by
  cases rest <;> simp [joinSlashes]

theorem joinSlashes_splitSlashes (cs : List Char) :
    joinSlashes (splitSlashes cs).1 (splitSlashes cs).2 = cs := by
  induction cs with
  | nil => rfl
  | cons c rest ih =>
    rw [splitSlashes]
    split
    · next h => simp [joinSlashes, ih, h]
    · rw [joinSlashes_cons, ih]

/-- Whether the path starts at the root of the file system. -/
def isAbsolute (path : FilePath) : Bool :=
  path.text.toList.head? = some '/'

/-- The path of `segment` below `path`. An absolute segment stands alone. -/
def push (path : FilePath) (segment : String) : FilePath :=
  if FilePath.isAbsolute ⟨segment⟩ then ⟨segment⟩
  else if path.text = "" ∨ path.text.toList.getLast? = some '/' then ⟨path.text ++ segment⟩
  else ⟨path.text ++ "/" ++ segment⟩

/-! ## Parents and extensions -/

/-- The pieces without those at the end that do not count. -/
def withoutEmptyEnd (pieces : List (List Char)) : List (List Char) :=
  (pieces.reverse.dropWhile fun piece => (Component.ofPiece? piece).isNone).reverse

/-- The pieces of the path up to the last one that counts; the first one stays in any case. -/
def countingPieces (path : FilePath) : List Char × List (List Char) :=
  let (first, others) := splitSlashes path.text.toList
  (first, withoutEmptyEnd others)

/-- The path without its last component. The root of the file system and the empty path have no
parent. -/
def parent? (path : FilePath) : Option FilePath :=
  let (first, others) := path.countingPieces
  if others.isEmpty then if first.isEmpty then none else some ⟨""⟩
  else
    match first, withoutEmptyEnd others.dropLast with
    | [], [] => some ⟨"/"⟩
    | first, kept => some ⟨String.ofList (joinSlashes first kept)⟩

/-- The name of a file without its extension; a dot at the beginning starts none. -/
def stem (name : List Char) : List Char :=
  match name.reverse.dropWhile (· ≠ '.') with
  | [] | ['.'] => name
  | _ :: rest => rest.reverse

/-- The path whose last component has this extension instead of its own. -/
def withExtension (path : FilePath) (extension : String) : FilePath :=
  let renamed (name : List Char) : List Char := stem name ++ '.' :: extension.toList
  let isEntry (name : List Char) : Bool := name ≠ [] && name ≠ ['.'] && name ≠ ['.', '.']
  let (first, others) := path.countingPieces
  match others.getLast? with
  | none => if isEntry first then ⟨String.ofList (renamed first)⟩ else path
  | some last =>
    if isEntry last then ⟨String.ofList (joinSlashes first (others.dropLast ++ [renamed last]))⟩
    else path

/-- Whether the path is written as that of a directory, with a slash or a dot at the end. -/
def namesDirectory (path : FilePath) : Bool :=
  let others := (splitSlashes path.text.toList).2
  match others.getLast? with
  | none => false
  | some last => (Component.ofPiece? last).isNone

/-- The last piece of the path, slashes at its end aside. -/
def lastPiece (path : FilePath) : List Char :=
  let (first, others) := splitSlashes path.text.toList
  (((first :: others).filter (· ≠ [])).getLast?).getD []

end FilePath

end Slotwise
