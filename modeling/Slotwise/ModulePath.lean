import Slotwise.Text.Blank
/-!
# Module paths

A module path is written as segments between pairs of colons. Segments are trimmed of blanks and
empty ones do not count, so `a:: ::b` names the same path as `a::b`.

Main statements: splitting at pairs of colons loses nothing (`joinPieces_pieces`), and every segment
is trimmed and not empty by construction.
-/

namespace Slotwise.ModulePath

/-- The pieces between the pairs of colons, found from the left; the first piece stands apart. -/
def pieces : List Char → List Char × List (List Char)
  | [] => ([], [])
  | ':' :: ':' :: rest => ([], (pieces rest).1 :: (pieces rest).2)
  | c :: rest => (c :: (pieces rest).1, (pieces rest).2)

/-- The pieces put back with a pair of colons between them. -/
def joinPieces (first : List Char) : List (List Char) → List Char
  | [] => first
  | next :: rest => first ++ [':', ':'] ++ joinPieces next rest

/-- The segments of a module path, trimmed and without the empty ones. -/
def segments (path : String) : List String :=
  let (first, rest) := pieces path.toList
  ((first :: rest).map Text.trimmed).filter (· ≠ []) |>.map String.ofList

/-- The text of a module path with these segments. -/
def ofSegments (segments : List String) : String :=
  "::".intercalate segments

/-- One module path with the segments of several. -/
def joined (paths : List String) : String :=
  ofSegments (paths.flatMap segments)

theorem joinPieces_cons (c : Char) (first : List Char) (rest : List (List Char)) :
    joinPieces (c :: first) rest = c :: joinPieces first rest := by
  cases rest <;> simp [joinPieces]

theorem joinPieces_pieces (cs : List Char) :
    joinPieces (pieces cs).1 (pieces cs).2 = cs := by
  fun_induction pieces cs with
  | case1 => rfl
  | case2 rest ih => simp [joinPieces, ih]
  | case3 c rest _ ih => rw [joinPieces_cons, ih]

end Slotwise.ModulePath
