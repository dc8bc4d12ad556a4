import Mathlib.Data.List.TakeWhile
import Slotwise.Proofs.FilePath
/-!
# Paths that end in a name

A path whose text ends in a plain name has a file name: pushing, taking the parent, changing the
extension and splitting into components all come apart at its last slash.
-/

namespace Slotwise.FilePath

/-- The name of a component that is one. -/
def Component.name? : Component → Option String
  | entry name => some name
  | _ => none

/-- The names that a path leads through, all steps of another kind aside. -/
def names (path : FilePath) : List String :=
  path.components.filterMap Component.name?

/-- The path is written as `front` with a plain name right behind it. -/
structure Ends (path : FilePath) (front : List Char) (name : String) : Prop where
  /-- The name is a component of its own. -/
  plain : IsPlain name
  /-- The text of the path. -/
  text : path.text.toList = front ++ name.toList
  /-- A slash stands before the name unless nothing does. -/
  apart : front = [] ∨ ∃ cs, front = cs ++ ['/']

/-- No slash is left out and none is added where every piece is free of slashes. -/
theorem splitSlashes_joinSlashes {first : List Char} {others : List (List Char)}
    (free : ∀ piece ∈ first :: others, '/' ∉ piece) :
    splitSlashes (joinSlashes first others) = (first, others) := by
  induction others generalizing first with
  | nil => exact splitSlashes_of_slashFree (free first List.mem_cons_self)
  | cons next rest ih =>
    obtain ⟨head, tail⟩ := List.forall_mem_cons.1 free
    rw [joinSlashes, splitSlashes_append, splitSlashes_of_slashFree head, ih tail]
    rfl

theorem slashFree_of_mem_splitSlashes {cs piece : List Char}
    (h : piece ∈ (splitSlashes cs).1 :: (splitSlashes cs).2) : '/' ∉ piece := by
  induction cs generalizing piece with
  | nil =>
    rw [splitSlashes, List.mem_singleton] at h
    rw [h]
    exact List.not_mem_nil
  | cons c rest ih =>
    rw [splitSlashes] at h
    split at h
    · obtain rfl | member := List.mem_cons.1 h
      · exact List.not_mem_nil
      · exact ih member
    · next ne =>
      obtain rfl | member := List.mem_cons.1 h
      · rw [List.mem_cons, not_or]
        exact ⟨Ne.symm ne, ih List.mem_cons_self⟩
      · exact ih (List.mem_cons_of_mem _ member)

/-- The opening of a path depends on its pieces. -/
theorem opening_eq (cs : List Char) :
    opening cs =
      if (splitSlashes cs).1 = [] ∧ (splitSlashes cs).2 ≠ [] then [.root]
      else if (splitSlashes cs).1 = ['.'] then [.here]
      else [] := by
  unfold opening
  congr 1
  cases cs with
  | nil => simp [splitSlashes]
  | cons c rest =>
    rw [splitSlashes]
    split
    · next slash => simp [slash]
    · next ne => simp [ne]

theorem joinSlashes_append (first : List Char) (others : List (List Char)) (last : List Char) :
    joinSlashes first (others ++ [last]) = joinSlashes first others ++ '/' :: last := by
  induction others generalizing first with
  | nil => rfl
  | cons next rest ih =>
    rw [List.cons_append, joinSlashes, ih, joinSlashes, List.append_assoc]
    rfl

theorem withoutEmptyEnd_append_of_counts (pieces : List (List Char)) {last : List Char}
    (counts : (Component.ofPiece? last).isNone = false) :
    withoutEmptyEnd (pieces ++ [last]) = pieces ++ [last] := by
  simp [withoutEmptyEnd, counts]

theorem withoutEmptyEnd_append_of_empty (pieces : List (List Char)) {last : List Char}
    (empty : (Component.ofPiece? last).isNone = true) :
    withoutEmptyEnd (pieces ++ [last]) = withoutEmptyEnd pieces := by
  simp [withoutEmptyEnd, empty]

/-- Pieces that do not count add no components. -/
theorem filterMap_withoutEmptyEnd (pieces : List (List Char)) :
    (withoutEmptyEnd pieces).filterMap Component.ofPiece? =
      pieces.filterMap Component.ofPiece? := by
  rw [← List.reverse_reverse pieces]
  induction pieces.reverse with
  | nil => rfl
  | cons last front ih =>
    rw [List.reverse_cons]
    cases counts : (Component.ofPiece? last).isNone with
    | false => rw [withoutEmptyEnd_append_of_counts _ counts]
    | true =>
      rw [withoutEmptyEnd_append_of_empty _ counts, ih]
      simp [Option.isNone_iff_eq_none.1 counts]

theorem withoutEmptyEnd_subset (pieces : List (List Char)) : withoutEmptyEnd pieces ⊆ pieces := by
  intro piece member
  rw [withoutEmptyEnd, List.mem_reverse] at member
  exact List.mem_reverse.1 ((List.dropWhile_sublist _).mem member)

theorem parent?_of_pieces {path : FilePath} {first last : List Char} {others : List (List Char)}
    (pieces : path.countingPieces = (first, others ++ [last])) :
    ∃ parent, path.parent? = some parent ∧
      parent.text.toList =
        if first = [] ∧ withoutEmptyEnd others = [] then ['/']
        else joinSlashes first (withoutEmptyEnd others) := by
  rw [parent?, pieces]
  simp only [List.dropLast_concat]
  cases first <;> cases withoutEmptyEnd others <;> simp

/-- The components of a path whose empty pieces at the end are gone. -/
theorem componentsOf_withoutEmptyEnd (cs : List Char) :
    componentsOf
        (if (splitSlashes cs).1 = [] ∧ withoutEmptyEnd (splitSlashes cs).2 = [] then ['/']
        else joinSlashes (splitSlashes cs).1 (withoutEmptyEnd (splitSlashes cs).2)) =
      componentsOf (cs ++ ['/']) := by
  have split_ := @splitSlashes_joinSlashes (splitSlashes cs).1
    (withoutEmptyEnd (splitSlashes cs).2) (by
      intro piece member
      obtain rfl | member := List.mem_cons.1 member
      · exact slashFree_of_mem_splitSlashes List.mem_cons_self
      · exact slashFree_of_mem_splitSlashes
          (List.mem_cons_of_mem _ (withoutEmptyEnd_subset _ member)))
  have whole : componentsOf (cs ++ ['/']) = opening (cs ++ ['/']) ++
      ((splitSlashes cs).1 :: withoutEmptyEnd (splitSlashes cs).2).filterMap
        Component.ofPiece? := by
    rw [componentsOf, splitSlashes_append]
    simp [List.filterMap_cons, filterMap_withoutEmptyEnd, splitSlashes, Component.ofPiece?]
  rw [whole]
  split
  · next root =>
    rw [opening_eq, splitSlashes_append, root.1, root.2]
    simp [componentsOf, opening, splitSlashes, Component.ofPiece?]
  · next notRoot =>
    -- a path that starts with a slash keeps at least one piece behind it
    rw [componentsOf, split_, opening_eq, opening_eq, split_, splitSlashes_append]
    by_cases first : (splitSlashes cs).1 = []
    · have kept : withoutEmptyEnd (splitSlashes cs).2 ≠ [] := fun none => notRoot ⟨first, none⟩
      simp [first, kept]
    · simp [first]

/-! ## The parts of a path that ends in a name -/

theorem IsPlain.ofPiece?_eq {name : String} (plain : IsPlain name) :
    Component.ofPiece? name.toList = some (.entry name) := by
  obtain ⟨nonempty, notDot, notDots⟩ := plain.counts
  rw [Component.ofPiece?, if_neg (not_or.2 ⟨nonempty, notDot⟩), if_neg notDots,
    String.ofList_toList]

namespace Ends

variable {path : FilePath} {front : List Char} {name : String}

theorem components (ends : path.Ends front name) :
    path.components = componentsOf front ++ [Component.entry name] := by
  rw [components_eq, ends.text]
  obtain rfl | ⟨cs, rfl⟩ := ends.apart
  · rw [List.nil_append, ends.plain.componentsOf]
    rfl
  · rw [List.append_assoc, List.singleton_append, componentsOf_append, ends.plain.ofPiece?]

/-- The pieces of a path that ends in a name. -/
theorem pieces (ends : path.Ends front name) :
    (front = [] ∧ splitSlashes path.text.toList = (name.toList, [])) ∨
      ∃ cs, front = cs ++ ['/'] ∧
        splitSlashes path.text.toList =
          ((splitSlashes cs).1, (splitSlashes cs).2 ++ [name.toList]) := by
  rw [ends.text]
  obtain rfl | ⟨cs, rfl⟩ := ends.apart
  · exact .inl ⟨rfl, splitSlashes_of_slashFree ends.plain.slashFree⟩
  · refine .inr ⟨cs, rfl, ?_⟩
    rw [List.append_assoc, List.singleton_append, splitSlashes_append,
      splitSlashes_of_slashFree ends.plain.slashFree]

theorem namesDirectory (ends : path.Ends front name) : path.namesDirectory = false := by
  obtain ⟨-, pieces⟩ | ⟨cs, -, pieces⟩ := ends.pieces <;>
    simp [FilePath.namesDirectory, pieces, ends.plain.ofPiece?_eq]

theorem lastPiece (ends : path.Ends front name) : path.lastPiece = name.toList := by
  have nonempty := ends.plain.counts.1
  rw [FilePath.lastPiece]
  obtain ⟨-, pieces⟩ | ⟨cs, -, pieces⟩ := ends.pieces
  · simp [pieces, nonempty]
  · rw [pieces]
    simp only [← List.cons_append, List.filter_append]
    simp [nonempty]

theorem countingPieces (ends : path.Ends front name) :
    path.countingPieces = splitSlashes path.text.toList := by
  have counts : (Component.ofPiece? name.toList).isNone = false := by
    rw [ends.plain.ofPiece?_eq]
    rfl
  rw [FilePath.countingPieces]
  obtain ⟨-, pieces⟩ | ⟨cs, -, pieces⟩ := ends.pieces
  · rw [pieces]
    rfl
  · rw [pieces]
    simp only [withoutEmptyEnd_append_of_counts _ counts]

/-- The parent is the path to everything before the name. -/
theorem exists_parent (ends : path.Ends front name) :
    ∃ parent, path.parent? = some parent ∧ parent.components = componentsOf front := by
  have counting := ends.countingPieces
  obtain ⟨rfl, pieces⟩ | ⟨cs, rfl, pieces⟩ := ends.pieces
  · refine ⟨⟨""⟩, ?_, rfl⟩
    rw [parent?, counting, pieces]
    simp [ends.plain.counts.1]
  · obtain ⟨parent, found, text⟩ := parent?_of_pieces (counting.trans pieces)
    exact ⟨parent, found, by rw [components_eq, text, componentsOf_withoutEmptyEnd]⟩

/-- Another extension changes nothing but the name. -/
theorem withExtension (ends : path.Ends front name) {extension : String}
    (plain : IsPlain (String.ofList (stem name.toList ++ '.' :: extension.toList))) :
    (path.withExtension extension).Ends front
      (String.ofList (stem name.toList ++ '.' :: extension.toList)) := by
  refine ⟨plain, ?_, ends.apart⟩
  obtain ⟨nonempty, notDot, notDots⟩ := ends.plain.counts
  rw [FilePath.withExtension, ends.countingPieces]
  obtain ⟨rfl, pieces⟩ | ⟨cs, rfl, pieces⟩ := ends.pieces
  · simp [pieces, nonempty, notDot, notDots]
  · rw [pieces]
    simp [nonempty, notDot, notDots, joinSlashes_append, joinSlashes_splitSlashes]

end Ends

/-- A name without slashes that holds more than dots is plain. -/
theorem isPlain_of_mem {name : String} (free : '/' ∉ name.toList) {c : Char}
    (member : c ∈ name.toList) (counts : c ≠ '.') : IsPlain name := by
  refine ⟨free, ?_, ?_, ?_⟩ <;> intro same <;> rw [same] at member
  · exact List.not_mem_nil member
  · exact counts (List.mem_singleton.1 member)
  · simp [counts] at member

/-- A path ends in a name if its text ends in something that counts. -/
theorem exists_ends {path : FilePath} {suffix : List Char} (h : suffix <:+ path.text.toList)
    (free : '/' ∉ suffix) {c : Char} (member : c ∈ suffix) (counts : c ≠ '.') :
    ∃ front name, path.Ends front name ∧ suffix <:+ name.toList := by
  obtain ⟨before, text⟩ := h
  -- the name starts behind the last slash
  have split_ := List.takeWhile_append_dropWhile (p := (· ≠ '/')) (l := before.reverse)
  generalize taken : before.reverse.takeWhile (· ≠ '/') = end_ at split_
  have free' : '/' ∉ end_ := by
    intro slash
    rw [← taken] at slash
    simpa using List.mem_takeWhile_imp slash
  have before_eq : before = (before.reverse.dropWhile (· ≠ '/')).reverse ++ end_.reverse := by
    rw [← List.reverse_append, split_, List.reverse_reverse]
  refine ⟨(before.reverse.dropWhile (· ≠ '/')).reverse, String.ofList (end_.reverse ++ suffix),
    ⟨?_, ?_, ?_⟩, ?_⟩
  · refine isPlain_of_mem (c := c) ?_ ?_ counts
    · simp [free, free']
    · simp [member]
  · rw [String.toList_ofList, ← List.append_assoc, ← before_eq, text]
  · cases rest : before.reverse.dropWhile (· ≠ '/') with
    | nil => exact .inl rfl
    | cons d others =>
      have slash := List.head?_dropWhile_not (· ≠ '/') before.reverse
      rw [rest] at slash
      have slash : d = '/' := by simpa using slash
      exact .inr ⟨others.reverse, by rw [List.reverse_cons, slash]⟩
  · rw [String.toList_ofList]
    exact List.suffix_append _ _

theorem map_entry_filterMap {components : List Component}
    (entries : ∀ component ∈ components, ∃ name, component = .entry name) :
    (components.filterMap Component.name?).map .entry = components := by
  induction components with
  | nil => rfl
  | cons component rest ih =>
    obtain ⟨⟨name, rfl⟩, tail⟩ := List.forall_mem_cons.1 entries
    exact congrArg (.entry name :: ·) (ih tail)

/-- The components that pieces between slashes stand for are names, steps upwards aside. -/
theorem exists_entry_of_pieces {pieces : List (List Char)}
    (down : .up ∉ pieces.filterMap Component.ofPiece?) :
    ∀ component ∈ pieces.filterMap Component.ofPiece?, ∃ name, component = .entry name := by
  intro component member
  obtain ⟨piece, -, found⟩ := List.mem_filterMap.1 member
  unfold Component.ofPiece? at found
  split at found
  · cases found
  · split at found
    · cases found
      exact absurd member down
    · cases found
      exact ⟨_, rfl⟩

theorem filterMap_name?_opening (cs : List Char) :
    (opening cs).filterMap Component.name? = [] := by
  unfold opening
  split
  · rfl
  · split <;> rfl

/-- Without steps upwards, what follows the opening of a path are its names. -/
theorem pieces_of_downward {path : FilePath} (down : .up ∉ path.components) :
    ((splitSlashes path.text.toList).1 :: (splitSlashes path.text.toList).2).filterMap
      Component.ofPiece? = path.names.map .entry := by
  rw [components_eq, componentsOf, List.mem_append, not_or] at down
  rw [names, components_eq, componentsOf, List.filterMap_append, filterMap_name?_opening,
    List.nil_append, map_entry_filterMap (exists_entry_of_pieces down.2)]

/-- Without steps upwards, only the first component can be none of the names. -/
theorem componentsOf_of_downward {cs : List Char} (down : .up ∉ componentsOf cs) :
    ∃ lead : List Component, (lead = [] ∨ lead = [.root] ∨ lead = [.here]) ∧
      componentsOf cs = lead ++ ((componentsOf cs).filterMap Component.name?).map .entry := by
  rw [componentsOf, List.mem_append, not_or] at down
  refine ⟨opening cs, ?_, ?_⟩
  · unfold opening
    split
    · exact .inr (.inl rfl)
    · split
      · exact .inr (.inr rfl)
      · exact .inl rfl
  · rw [componentsOf, List.filterMap_append, filterMap_name?_opening, List.nil_append,
      map_entry_filterMap (exists_entry_of_pieces down.2)]

theorem Ends.names {path : FilePath} {front : List Char} {name : String}
    (ends : path.Ends front name) :
    path.names = (componentsOf front).filterMap Component.name? ++ [name] := by
  rw [FilePath.names, ends.components, List.filterMap_append]
  rfl

/-- A slash-free end of the text that counts is an end of the name. -/
theorem Ends.suffix {path : FilePath} {front suffix : List Char} {name : String}
    (ends : path.Ends front name) (h : suffix <:+ path.text.toList) (free : '/' ∉ suffix) :
    suffix <:+ name.toList := by
  rw [ends.text] at h
  obtain within | longer := List.suffix_or_suffix_of_suffix h (List.suffix_append front _)
  · exact within
  · -- more than the name would take a slash in
    obtain ⟨more, rfl⟩ := longer
    obtain ⟨before, split_⟩ := h
    rw [← List.append_assoc] at split_
    have split_ := List.append_cancel_right split_
    obtain rfl | ⟨rest, last⟩ := more.eq_nil_or_concat
    · exact List.suffix_rfl
    · obtain ⟨last, rfl⟩ := last
      obtain rfl | ⟨cs, rfl⟩ := ends.apart
      · simp at split_
      · rw [List.concat_eq_append, ← List.append_assoc] at split_
        have slash := (List.append_inj' split_ rfl).2
        rw [List.concat_eq_append, slash] at free
        simp at free

theorem suffix_push (path : FilePath) (segment : String) :
    segment.toList <:+ (path.push segment).text.toList := by
  rw [push]
  split
  · exact List.suffix_rfl
  · split <;> rw [String.toList_append] <;> exact List.suffix_append _ _

/-- What stands before a relative segment that continues a path is nothing or ends in a slash. -/
theorem exists_text_push (path : FilePath) {segment : String}
    (relative : FilePath.isAbsolute ⟨segment⟩ = false) :
    ∃ before, (path.push segment).text.toList = before ++ segment.toList ∧
      (before = [] ∨ ∃ cs, before = cs ++ ['/']) := by
  rw [push, if_neg (by rw [relative]; exact Bool.false_ne_true)]
  split
  · next ends =>
    refine ⟨path.text.toList, String.toList_append, ends.imp (fun empty => ?_) fun slash => ?_⟩
    · rw [empty, String.toList_empty]
    · exact List.getLast?_eq_some_iff.1 slash
  · refine ⟨path.text.toList ++ ['/'], ?_, .inr ⟨_, rfl⟩⟩
    rw [String.toList_append, String.toList_append]
    rfl

/-- A relative path still ends in its name behind another path. -/
theorem Ends.push {path : FilePath} {front : List Char} {name : String}
    (ends : path.Ends front name) (relative : path.isAbsolute = false) (root : FilePath) :
    ∃ longer, (root.push path.text).Ends longer name := by
  obtain ⟨before, text, apart⟩ := exists_text_push root relative
  refine ⟨before ++ front, ends.plain, by rw [text, ends.text, List.append_assoc], ?_⟩
  obtain rfl | ⟨cs, rfl⟩ := ends.apart
  · rwa [List.append_nil]
  · exact .inr ⟨before ++ cs, (List.append_assoc _ _ _).symm⟩

end Slotwise.FilePath
