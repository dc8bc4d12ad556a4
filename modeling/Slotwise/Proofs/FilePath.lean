import Slotwise.FilePath
/-!
# Components of longer paths

A plain name that is pushed onto a path adds exactly one component, whatever way the path is
written in (`components_push`).
-/

namespace Slotwise.FilePath

/-- A name that stands for itself as a component. -/
structure IsPlain (name : String) : Prop where
  /-- It holds no slash. -/
  slashFree : '/' ∉ name.toList
  /-- It counts and does not lead upwards. -/
  counts : name.toList ≠ [] ∧ name.toList ≠ ['.'] ∧ name.toList ≠ ['.', '.']

/-- The component that opens a path besides its names. -/
def opening (cs : List Char) : List Component :=
  if cs.head? = some '/' then [.root]
  else if (splitSlashes cs).1 = ['.'] then [.here]
  else []

/-- The components of a path given by its characters. -/
def componentsOf (cs : List Char) : List Component :=
  opening cs ++ ((splitSlashes cs).1 :: (splitSlashes cs).2).filterMap Component.ofPiece?

theorem components_eq (path : FilePath) : path.components = componentsOf path.text.toList := rfl

theorem splitSlashes_of_slashFree {cs : List Char} (h : '/' ∉ cs) : splitSlashes cs = (cs, []) := by
  induction cs with
  | nil => rfl
  | cons c rest ih =>
    rw [List.mem_cons, not_or] at h
    rw [splitSlashes, if_neg (Ne.symm h.1), ih h.2]

theorem splitSlashes_append (cs rest : List Char) :
    splitSlashes (cs ++ '/' :: rest) =
      ((splitSlashes cs).1,
        (splitSlashes cs).2 ++ (splitSlashes rest).1 :: (splitSlashes rest).2) := by
  induction cs with
  | nil => simp [splitSlashes]
  | cons c cs ih =>
    rw [List.cons_append, splitSlashes, splitSlashes, ih]
    split <;> simp

theorem opening_append (cs rest : List Char) :
    opening (cs ++ '/' :: rest) = opening (cs ++ ['/']) := by
  unfold opening
  rw [splitSlashes_append, splitSlashes_append]
  cases cs <;> rfl

theorem componentsOf_append (cs rest : List Char) :
    componentsOf (cs ++ '/' :: rest) =
      componentsOf (cs ++ ['/']) ++
        ((splitSlashes rest).1 :: (splitSlashes rest).2).filterMap Component.ofPiece? := by
  rw [componentsOf, componentsOf, opening_append, splitSlashes_append, splitSlashes_append]
  simp only [List.append_assoc, ← List.filterMap_append, List.cons_append]
  congr 1
  simp [List.filterMap_cons, List.filterMap_append, Component.ofPiece?, splitSlashes]

theorem componentsOf_slash {cs : List Char} (nonempty : cs ≠ []) :
    componentsOf (cs ++ ['/']) = componentsOf cs := by
  have same : opening (cs ++ ['/']) = opening cs := by
    unfold opening
    rw [splitSlashes_append]
    cases cs with
    | nil => exact absurd rfl nonempty
    | cons c rest => rfl
  rw [componentsOf, componentsOf, same, splitSlashes_append]
  simp [List.filterMap_cons, List.filterMap_append, Component.ofPiece?, splitSlashes]

theorem IsPlain.ofPiece? {name : String} (plain : IsPlain name) :
    ((splitSlashes name.toList).1 :: (splitSlashes name.toList).2).filterMap
      Component.ofPiece? = [.entry name] := by
  have counts := plain.counts
  rw [splitSlashes_of_slashFree plain.slashFree]
  simp [Component.ofPiece?, counts]

theorem IsPlain.componentsOf {name : String} (plain : IsPlain name) :
    componentsOf name.toList = [.entry name] := by
  have noOpening : opening name.toList = [] := by
    unfold opening
    rw [splitSlashes_of_slashFree plain.slashFree, if_neg, if_neg plain.counts.2.1]
    intro slash
    exact plain.slashFree (List.mem_of_mem_head? slash)
  rw [FilePath.componentsOf, noOpening, plain.ofPiece?, List.nil_append]

theorem IsPlain.isAbsolute {name : String} (plain : IsPlain name) :
    FilePath.isAbsolute ⟨name⟩ = false := by
  rw [FilePath.isAbsolute, decide_eq_false_iff_not]
  intro slash
  exact plain.slashFree (List.mem_of_mem_head? slash)

/-- A relative segment continues the path; behind the empty path it stands alone. -/
theorem components_push_of_relative (path : FilePath) {segment : String}
    (relative : FilePath.isAbsolute ⟨segment⟩ = false) :
    (path.push segment).components =
      if path.text = "" then FilePath.components ⟨segment⟩
      else path.components ++
        ((splitSlashes segment.toList).1 :: (splitSlashes segment.toList).2).filterMap
          Component.ofPiece? := by
  rw [push, if_neg (by rw [relative]; exact Bool.false_ne_true)]
  by_cases empty : path.text = ""
  · rw [if_pos (.inl empty), if_pos empty, empty, String.empty_append]
  · rw [if_neg empty]
    have nonempty : path.text.toList ≠ [] := mt String.toList_eq_nil_iff.1 empty
    by_cases slash : path.text.toList.getLast? = some '/'
    · -- the slash that a segment needs before it is there already
      obtain ⟨front, ends⟩ := List.getLast?_eq_some_iff.1 slash
      rw [if_pos (.inr slash), components_eq, components_eq, String.toList_append, ends,
        List.append_assoc, List.singleton_append, componentsOf_append]
    · have between : ("/" : String).toList = ['/'] := rfl
      rw [if_neg (not_or.2 ⟨empty, slash⟩), components_eq, components_eq, String.toList_append,
        String.toList_append, between, List.append_assoc, List.singleton_append,
        componentsOf_append, componentsOf_slash nonempty]

theorem components_push (path : FilePath) {name : String} (plain : IsPlain name) :
    (path.push name).components = path.components ++ [Component.entry name] := by
  rw [components_push_of_relative path plain.isAbsolute, plain.ofPiece?]
  split
  · next empty =>
    rw [components_eq, components_eq, empty, plain.componentsOf]
    rfl
  · rfl

/-- What follows the opening of a path can be told from its components. -/
theorem filter_components (path : FilePath) :
    path.components.filter (fun component => component ≠ .root ∧ component ≠ .here) =
      ((splitSlashes path.text.toList).1 :: (splitSlashes path.text.toList).2).filterMap
        Component.ofPiece? := by
  have noOpening : (opening path.text.toList).filter
      (fun component => component ≠ .root ∧ component ≠ .here) = [] := by
    rw [opening]
    split
    · rfl
    · split <;> rfl
  rw [components_eq, componentsOf, List.filter_append, noOpening, List.nil_append,
    List.filter_eq_self]
  intro component member
  obtain ⟨piece, -, found⟩ := List.mem_filterMap.1 member
  rw [Component.ofPiece?] at found
  split at found
  · cases found
  · split at found <;> cases found <;> rfl

theorem isAbsolute_iff (path : FilePath) : path.isAbsolute = true ↔ .root ∈ path.components := by
  rw [isAbsolute, decide_eq_true_eq, components_eq, componentsOf, List.mem_append]
  constructor
  · intro slash
    exact .inl (by rw [opening, if_pos slash]; exact List.mem_singleton_self _)
  · rintro (first | later)
    · rw [opening] at first
      split at first
      · next slash => exact slash
      · split at first <;> simp at first
    · rw [← filter_components, List.mem_filter] at later
      simp at later

/-- How the end of a longer path is written does not count. -/
theorem components_push_congr {a b : FilePath} (same : a.components = b.components)
    (root : FilePath) : (root.push a.text).components = (root.push b.text).components := by
  have absolute : b.isAbsolute = a.isAbsolute := by
    rw [Bool.eq_iff_iff, isAbsolute_iff, isAbsolute_iff, same]
  cases alone : a.isAbsolute with
  | true =>
    rw [push, push, if_pos alone, if_pos (absolute.trans alone)]
    exact same
  | false =>
    rw [components_push_of_relative root alone,
      components_push_of_relative root (absolute.trans alone), ← filter_components,
      ← filter_components, same]

/-- A path that is continued is absolute if it was, or if what continues it is. -/
theorem isAbsolute_push (path : FilePath) (segment : String) :
    (path.push segment).isAbsolute = (path.isAbsolute || FilePath.isAbsolute ⟨segment⟩) := by
  rw [push]
  cases absolute : FilePath.isAbsolute ⟨segment⟩ with
  | true => rw [if_pos rfl, absolute, Bool.or_true]
  | false =>
    rw [if_neg Bool.false_ne_true, Bool.or_false]
    by_cases empty : path.text = ""
    · rw [if_pos (.inl empty), empty, String.empty_append, absolute, isAbsolute, empty]
      rfl
    · -- what comes behind does not change how the path starts
      obtain ⟨c, rest, text⟩ := List.exists_cons_of_ne_nil (mt String.toList_eq_nil_iff.1 empty)
      split <;> simp only [isAbsolute, String.toList_append, text, List.cons_append,
        List.head?_cons]

theorem components_foldl_push (names : List String) (path : FilePath)
    (plain : ∀ name ∈ names, IsPlain name) :
    (names.foldl push path).components = path.components ++ names.map .entry := by
  induction names generalizing path with
  | nil => simp
  | cons name rest ih =>
    obtain ⟨head, tail⟩ := List.forall_mem_cons.1 plain
    rw [List.foldl_cons, ih _ tail, components_push path head, List.append_assoc]
    rfl

end Slotwise.FilePath
