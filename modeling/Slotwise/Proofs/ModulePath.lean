import Mathlib.Data.List.TakeWhile
import Slotwise.Naming
/-!
# Segments of module paths

Writing segments as a module path and splitting it again gives the same segments, as long as none of
them holds a colon. A character that is neither a blank nor a colon is never lost: it is in some
segment of the path that it is in.
-/

namespace Slotwise.Text

/-- No blank stands at either end. -/
def Bare (cs : List Char) : Prop :=
  (∀ c ∈ cs.head?, isBlank c = false) ∧ ∀ c ∈ cs.getLast?, isBlank c = false

theorem dropWhile_isBlank {cs : List Char} (h : ∀ c ∈ cs.head?, isBlank c = false) :
    cs.dropWhile isBlank = cs := by
  cases cs with
  | nil => rfl
  | cons c rest => rw [List.dropWhile_cons_of_neg (by simp [h c rfl])]

theorem trimmed_of_bare {cs : List Char} (bare : Bare cs) : trimmed cs = cs := by
  rw [trimmed, dropWhile_isBlank bare.1, dropWhile_isBlank, List.reverse_reverse]
  rw [List.head?_reverse]
  exact bare.2

theorem not_isBlank_of_mem_head?_dropWhile {cs : List Char} {c : Char}
    (h : c ∈ (cs.dropWhile isBlank).head?) : isBlank c = false := by
  have spec := List.head?_dropWhile_not isBlank cs
  rw [Option.mem_def.1 h] at spec
  exact spec

theorem bare_trimmed (cs : List Char) : Bare (trimmed cs) := by
  constructor
  · intro c first
    -- what is left is a front part of the text without its leading blanks
    have split := List.takeWhile_append_dropWhile
      (p := isBlank) (l := (cs.dropWhile isBlank).reverse)
    have front : cs.dropWhile isBlank =
        trimmed cs ++ ((cs.dropWhile isBlank).reverse.takeWhile isBlank).reverse := by
      rw [trimmed, ← List.reverse_append, split, List.reverse_reverse]
    refine @not_isBlank_of_mem_head?_dropWhile cs c ?_
    rw [front, List.head?_append, Option.mem_def.1 first]
    rfl
  · intro c last
    rw [trimmed, List.getLast?_reverse] at last
    exact not_isBlank_of_mem_head?_dropWhile last

theorem mem_of_mem_trimmed {cs : List Char} {c : Char} (h : c ∈ trimmed cs) : c ∈ cs := by
  rw [trimmed, List.mem_reverse] at h
  exact (List.dropWhile_sublist _).mem
    (List.mem_reverse.1 ((List.dropWhile_sublist _).mem h))

theorem mem_dropWhile_isBlank {cs : List Char} {c : Char} (h : c ∈ cs)
    (solid : isBlank c = false) : c ∈ cs.dropWhile isBlank := by
  rw [← List.takeWhile_append_dropWhile (p := isBlank) (l := cs), List.mem_append] at h
  obtain taken | kept := h
  · have blank := List.mem_takeWhile_imp taken
    rw [solid] at blank
    cases blank
  · exact kept

theorem mem_trimmed {cs : List Char} {c : Char} (h : c ∈ cs) (solid : isBlank c = false) :
    c ∈ trimmed cs := by
  rw [trimmed, List.mem_reverse]
  exact mem_dropWhile_isBlank (List.mem_reverse.2 (mem_dropWhile_isBlank h solid)) solid

end Slotwise.Text

namespace Slotwise.ModulePath

/-- The segments of a path given by its characters. -/
def segmentsOf (cs : List Char) : List String :=
  (((pieces cs).1 :: (pieces cs).2).map Text.trimmed).filter (· ≠ []) |>.map String.ofList

/-- A text that splitting a module path can give as a segment, and that holds no colon. -/
structure Plain (segment : String) : Prop where
  /-- It holds no colon. -/
  colonFree : ':' ∉ segment.toList
  /-- No blank stands at either end. -/
  bare : Text.Bare segment.toList
  /-- It is not empty. -/
  nonempty : segment.toList ≠ []

theorem pieces_of_colonFree {cs : List Char} (h : ':' ∉ cs) : pieces cs = (cs, []) := by
  fun_induction pieces cs with
  | case1 => rfl
  | case2 rest ih => simp at h
  | case3 c rest _ ih =>
    rw [List.mem_cons, not_or] at h
    rw [ih h.2]

theorem pieces_append {cs : List Char} (h : ':' ∉ cs) (rest : List Char) :
    pieces (cs ++ ':' :: ':' :: rest) = (cs, (pieces rest).1 :: (pieces rest).2) := by
  induction cs with
  | nil => rw [List.nil_append, pieces]
  | cons c cs ih =>
    rw [List.mem_cons, not_or] at h
    rw [List.cons_append, pieces, ih h.2]
    intro tail same
    exact absurd same.symm h.1

theorem segmentsOf_append {cs : List Char} (h : ':' ∉ cs) (rest : List Char) :
    segmentsOf (cs ++ ':' :: ':' :: rest) = segmentsOf cs ++ segmentsOf rest := by
  rw [segmentsOf, pieces_append h, segmentsOf, pieces_of_colonFree h, segmentsOf]
  rw [← List.map_append, ← List.filter_append, ← List.map_append]
  rfl

theorem Plain.segmentsOf {segment : String} (plain : Plain segment) :
    segmentsOf segment.toList = [segment] := by
  have kept := plain.nonempty
  rw [ModulePath.segmentsOf, pieces_of_colonFree plain.colonFree]
  simp [Text.trimmed_of_bare plain.bare, kept]

theorem segments_ofSegments {segs : List String} (plain : ∀ segment ∈ segs, Plain segment) :
    segments (ofSegments segs) = segs := by
  have split : segments (ofSegments segs) = segmentsOf (ofSegments segs).toList := rfl
  rw [split, ofSegments]
  clear split
  induction segs with
  | nil => rfl
  | cons first rest ih =>
    obtain ⟨head, tail⟩ := List.forall_mem_cons.1 plain
    cases rest with
    | nil => rw [String.intercalate_singleton, head.segmentsOf]
    | cons next rest =>
      have joined : ("::".intercalate (first :: next :: rest)).toList =
          first.toList ++ ':' :: ':' :: ("::".intercalate (next :: rest)).toList := by
        rw [String.intercalate_cons_cons, String.toList_append, String.toList_append]
        simp
      rw [joined, segmentsOf_append head.colonFree, head.segmentsOf, ih tail]
      rfl

/-! ## What segments hold -/

theorem bare_of_mem_segments {path segment : String} (h : segment ∈ segments path) :
    Text.Bare segment.toList ∧ segment.toList ≠ [] := by
  simp only [segments, List.mem_map, List.mem_filter] at h
  obtain ⟨cs, ⟨⟨piece, -, rfl⟩, nonempty⟩, rfl⟩ := h
  rw [String.toList_ofList]
  exact ⟨Text.bare_trimmed piece, by simpa using nonempty⟩

theorem plain_of_mem_segments {path segment : String} (h : segment ∈ segments path)
    (colonFree : ':' ∉ segment.toList) : Plain segment :=
  ⟨colonFree, (bare_of_mem_segments h).1, (bare_of_mem_segments h).2⟩

theorem mem_pieces_iff {cs : List Char} {c : Char} (other : c ≠ ':') :
    (∃ piece ∈ (pieces cs).1 :: (pieces cs).2, c ∈ piece) ↔ c ∈ cs := by
  fun_induction pieces cs with
  | case1 => simp
  | case2 rest ih =>
    simp only [List.mem_cons, exists_eq_or_imp] at ih ⊢
    simp [ih, other]
  | case3 d rest _ ih =>
    simp only [List.mem_cons, exists_eq_or_imp] at ih ⊢
    rw [← ih, or_assoc]

theorem exists_mem_segments_iff {path : String} {c : Char} (other : c ≠ ':')
    (solid : Text.isBlank c = false) :
    (∃ segment ∈ segments path, c ∈ segment.toList) ↔ c ∈ path.toList := by
  rw [← mem_pieces_iff other]
  simp only [segments, List.mem_map, List.mem_filter]
  constructor
  · rintro ⟨_, ⟨_, ⟨⟨piece, member, rfl⟩, -⟩, rfl⟩, inside⟩
    rw [String.toList_ofList] at inside
    exact ⟨piece, member, Text.mem_of_mem_trimmed inside⟩
  · rintro ⟨piece, member, inside⟩
    have kept := Text.mem_trimmed inside solid
    refine ⟨String.ofList (Text.trimmed piece), ⟨_, ⟨⟨piece, member, rfl⟩, ?_⟩, rfl⟩, ?_⟩
    · simpa using List.ne_nil_of_mem kept
    · rwa [String.toList_ofList]

theorem mem_ofSegments {segs : List String} {segment : String} {c : Char} (h : segment ∈ segs)
    (inside : c ∈ segment.toList) : c ∈ (ofSegments segs).toList := by
  rw [ofSegments]
  induction segs with
  | nil => cases h
  | cons first rest ih =>
    cases rest with
    | nil =>
      cases List.mem_singleton.1 h
      rwa [String.intercalate_singleton]
    | cons next rest =>
      rw [String.intercalate_cons_cons, String.toList_append, String.toList_append]
      obtain rfl | later := List.mem_cons.1 h
      · simp [inside]
      · exact List.mem_append_right _ (ih later)

end Slotwise.ModulePath
