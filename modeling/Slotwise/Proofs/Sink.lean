import Slotwise.Proofs.FileTree
import Slotwise.Sink
/-!
# Steps on disk

What clearing directories and writing files leaves on disk, first for one step and then for a
batch: a directory that is cleared takes everything in it along, and a file that is written adds
itself and the directories that it stands in.

Main statements: whatever steps succeed leave source files only, each in a directory
(`Tidy.runAll`); a batch whose files and directories stay apart succeeds and leaves its own entries
over what it did not clear (`Batch.exists_run`).
-/

namespace Slotwise

namespace Disk

open FileTree

/-- The end of the name of a source file. -/
def sourceSuffix : List Char := ".rs".toList

theorem exists_ends_of_source {path : FilePath} (source : sourceSuffix <:+ path.text.toList) :
    ∃ front name, path.Ends front name ∧ sourceSuffix <:+ name.toList :=
  FilePath.exists_ends source (by decide) (c := 'r') (by decide) (by decide)

/-- The file is named as a source file. -/
def IsSource (names : List String) : Prop :=
  ∃ front name, names = front ++ [name] ∧ sourceSuffix <:+ name.toList

/-- All files are source files, and all entries stand in directories. -/
structure Tidy (tree : FileTree) : Prop where
  /-- Entries stand in directories. -/
  closed : tree.Closed
  /-- Files are source files. -/
  sources : ∀ names text, tree.get? names = some (.file text) → IsSource names

theorem tidy_empty : Tidy FileTree.empty := by
  refine ⟨closed_empty, fun names text present => ?_⟩
  by_cases top : names = []
  · rw [top, get?_nil] at present
    cases present
  · rw [get?_empty top] at present
    cases present

/-! ## Steps that succeed -/

theorem bind_eq_ok_iff {x : Disk Unit} {f : Unit → Disk Unit} {tree last : FileTree} :
    (x >>= f) tree = .ok () last ↔ ∃ between, x tree = .ok () between ∧ f () between = .ok () last := by
  show EStateM.bind x f tree = .ok () last ↔ _
  rw [EStateM.bind]
  cases x tree with
  | error failure tree => simp
  | ok _ between => simp

theorem attempt_eq_ok_iff {operation : FileTree → Except DiskError FileTree}
    {failure : DiskError → Failure} {tree last : FileTree} :
    attempt operation failure tree = .ok () last ↔ operation tree = .ok last := by
  rw [attempt]
  cases operation tree <;> simp

theorem clear_eq_ok_iff {directory : FilePath} {tree last : FileTree} :
    clear directory tree = .ok () last ↔
      (tree.clear directory).2 = none ∧ (tree.clear directory).1 = last := by
  rw [clear]
  rcases tree.clear directory with ⟨cleared, _ | error⟩ <;> simp

variable {path : FilePath} {front : List Char} {name : String} {tree last : FileTree}

theorem makeParents_eq_ok_iff (ends : path.Ends front name) :
    makeParents path tree = .ok () last ↔
      tree.makeDirectoriesBack (FilePath.componentsOf front).reverse = .ok last := by
  obtain ⟨parent, found, components⟩ := ends.exists_parent
  rw [makeParents, found]
  simp only
  split
  · next nothing =>
    -- the path is a bare name, so there is nothing to make
    have top : FilePath.componentsOf front = [] := by
      rw [← components, FilePath.components_eq, nothing]
      rfl
    rw [top]
    constructor <;> intro h <;> cases h <;> rfl
  · rw [attempt_eq_ok_iff, makeDirectories, components]

theorem write_eq_ok_iff (ends : path.Ends front name) {content : String} :
    write path content tree = .ok () last ↔
      ∃ made written,
        tree.makeDirectoriesBack (FilePath.componentsOf front).reverse = .ok made ∧
        made.write (temporary path) content = .ok written ∧
        written.rename (temporary path) path = .ok last := by
  rw [write, bind_eq_ok_iff]
  simp only [bind_eq_ok_iff, attempt_eq_ok_iff, makeParents_eq_ok_iff ends]
  constructor
  · rintro ⟨made, first, written, second, third⟩
    exact ⟨made, written, first, second, third⟩
  · rintro ⟨made, written, first, second, third⟩
    exact ⟨made, first, written, second, third⟩

/-! ## Temporary files -/

/-- The name of the file that is written before it is moved. -/
def temporaryName (name : String) : String :=
  String.ofList (FilePath.stem name.toList ++ '.' :: "tmp".toList)

theorem mem_of_mem_stem {cs : List Char} {c : Char} (h : c ∈ FilePath.stem cs) : c ∈ cs := by
  rw [FilePath.stem] at h
  split at h
  · exact h
  · exact h
  · next split_ =>
    have inside : c ∈ cs.reverse.dropWhile (· ≠ '.') := by
      rw [split_]
      exact List.mem_cons_of_mem _ (List.mem_reverse.1 h)
    exact List.mem_reverse.1 ((List.dropWhile_sublist _).mem inside)

theorem ends_temporary (ends : path.Ends front name) :
    (temporary path).Ends front (temporaryName name) := by
  refine ends.withExtension (FilePath.isPlain_of_mem (c := 't') ?_ ?_ (by decide))
  · rw [String.toList_ofList, List.mem_append, not_or]
    exact ⟨fun slash => ends.plain.slashFree (mem_of_mem_stem slash), by decide⟩
  · rw [String.toList_ofList]
    exact List.mem_append_right _ (by decide)

theorem temporary_not_source (names : List String) (name : String) :
    ¬IsSource (names ++ [temporaryName name]) := by
  rintro ⟨front, last, same, before, source⟩
  obtain ⟨-, same⟩ := List.append_inj' same rfl
  rw [← List.singleton_inj.1 same, temporaryName, String.toList_ofList] at source
  -- the names differ in their last character
  have final := congrArg List.getLast? source
  simp [sourceSuffix] at final

/-- No file of a tidy tree is in the way of a temporary one. -/
theorem Tidy.vacant (tidy : Tidy tree) (ends : path.Ends front name)
    (free : tree.get? (temporary path).names ≠ some .directory) :
    tree.get? (temporary path).names = none := by
  cases present : tree.get? (temporary path).names with
  | none => rfl
  | some entry => cases entry with
    | directory => exact absurd present free
    | file text =>
      have source := tidy.sources _ text present
      rw [(ends_temporary ends).names] at source
      exact absurd source (temporary_not_source _ name)

/-! ## What writing a file leaves -/

/-- What writing a file leaves: the file in its place, nothing in the place it was written to first,
all other files, and every directory. -/
structure Writes (tree last : FileTree) (place temp : List String) (content : String) : Prop where
  /-- Entries stand in directories. -/
  closed : last.Closed
  /-- Directories stay. -/
  kept : ∀ names, tree.get? names = some .directory → last.get? names = some .directory
  /-- Files stay, the one that was written and the one it was written to first aside. -/
  file_iff : ∀ names text, last.get? names = some (.file text) ↔
    if names = place then text = content
    else names ≠ temp ∧ tree.get? names = some (.file text)

/-- A path that ends in a name leads there in the directory before it. -/
theorem exists_walk_of_locate (ends : path.Ends front name)
    {names : List String} (h : tree.locate path = .ok names) :
    ∃ above, tree.walk [] (FilePath.componentsOf front) = .ok above ∧ names = above ++ [name] := by
  have walk_ := walk_of_locate h
  rw [ends.components, walk_append] at walk_
  split at walk_
  · next above found => exact ⟨above, found, @eq_of_walk _ [name] above _ walk_⟩
  · cases walk_

/-- Writing a file through a temporary one beside it, in the directory that the path leads through when
the file is there. -/
theorem exists_writes (closed : tree.Closed) (ends : path.Ends front name) {content : String}
    (h : Disk.write path content tree = .ok () last) :
    ∃ above, last.walk [] (FilePath.componentsOf front) = .ok above ∧
      Writes tree last (above ++ [name]) (above ++ [temporaryName name]) content := by
  obtain ⟨made, written, first, second, third⟩ := (Disk.write_eq_ok_iff ends).1 h
  obtain ⟨closedMade, grows⟩ := closed.makeDirectoriesBack first
  obtain ⟨temp, tempAt, tempFree, rfl⟩ := FileTree.write_eq_ok_iff.1 second
  obtain ⟨old, new, text, oldAt, newAt, present, newFree, rfl⟩ := exists_of_rename third
  have stays : ∀ names, tree.get? names = some .directory → made.get? names = some .directory := by
    intro names directory
    obtain same | ⟨absent, -⟩ := grows names
    · rw [same, directory]
    · rw [directory] at absent
      cases absent
  have tempNamed : temp ≠ [] := fun top => tempFree (by rw [top, get?_nil])
  have kept : ∀ names, made.get? names = some .directory →
      (made.put temp (.file content)).get? names = some .directory := by
    intro names directory
    rw [get?_put_of_ne_nil tempNamed, if_neg, directory]
    rintro rfl
    exact tempFree directory
  -- all three operations work in the directory that the path leads through
  obtain ⟨above, through, rfl⟩ := exists_walk_of_locate (ends_temporary ends) tempAt
  have throughWritten := walk_of_directories kept through
  obtain ⟨above', again, rfl⟩ := exists_walk_of_locate (ends_temporary ends) oldAt
  cases again.symm.trans throughWritten
  obtain ⟨above', again, rfl⟩ := exists_walk_of_locate ends newAt
  cases again.symm.trans throughWritten
  have closedWritten : (made.put (above ++ [temporaryName name]) (.file content)).Closed :=
    closedMade.put (closedMade.directory_of_walk rfl (walk_of_locate tempAt)) (.inr tempFree)
  have content_eq : text = content := by
    rw [get?_put_of_ne_nil tempNamed, if_pos rfl] at present
    cases present
    rfl
  subst content_eq
  have newNamed : above ++ [name] ≠ [] := by simp
  have getLast : ∀ names, (((made.put (above ++ [temporaryName name]) (.file text)).remove
      (above ++ [temporaryName name])).put (above ++ [name]) (.file text)).get? names =
        if names = above ++ [name] then some (.file text)
        else if names = above ++ [temporaryName name] then none else made.get? names := by
    intro names
    rw [get?_put_of_ne_nil newNamed, get?_remove_of_ne_nil tempNamed, get?_put_of_ne_nil tempNamed]
    split
    · rfl
    · split <;> rfl
  have keptLast : ∀ names, made.get? names = some .directory →
      (((made.put (above ++ [temporaryName name]) (.file text)).remove
        (above ++ [temporaryName name])).put (above ++ [name]) (.file text)).get? names =
          some .directory := by
    intro names there
    rw [getLast, if_neg, if_neg, there]
    · rintro rfl
      exact tempFree there
    · rintro rfl
      exact newFree (kept _ there)
  refine ⟨above, walk_of_directories keptLast through,
    (closedWritten.remove (by rw [present]; simp)).put ?_ (.inr ?_),
    fun names there => keptLast names (stays names there), fun names other => ?_⟩
  · have parent := closedWritten.directory_of_walk rfl (walk_of_locate newAt)
    rw [get?_remove_of_ne_nil tempNamed, if_neg, parent]
    intro same
    rw [same, present] at parent
    cases parent
  · rw [get?_remove_of_ne_nil tempNamed]
    split
    · simp
    · exact newFree
  · rw [getLast]
    by_cases itself : names = above ++ [name]
    · rw [if_pos itself, if_pos itself, Option.some.injEq, Entry.file.injEq, eq_comm]
    · rw [if_neg itself, if_neg itself]
      by_cases beside : names = above ++ [temporaryName name]
      · simp [beside]
      · rw [if_neg beside, grows.file_iff]
        exact (and_iff_right beside).symm

/-! ## Steps that succeed keep a tree tidy -/

theorem tidy_of_write (tidy : Tidy tree) (ends : path.Ends front name)
    (source : sourceSuffix <:+ name.toList) {content : String}
    (h : write path content tree = .ok () last) : Tidy last := by
  obtain ⟨above, -, writes⟩ := exists_writes tidy.closed ends h
  refine ⟨writes.closed, fun names text present => ?_⟩
  rw [writes.file_iff] at present
  split at present
  · next same => exact ⟨above, name, same, source⟩
  · exact tidy.sources names text present.2

theorem tidy_of_clear (tidy : Tidy tree) {directory : FilePath}
    (h : clear directory tree = .ok () last) : Tidy last := by
  obtain ⟨-, rfl⟩ := clear_eq_ok_iff.1 h
  exact ⟨tidy.closed.clear directory,
    fun names text present => tidy.sources names text (get?_of_clear present)⟩

/-! ## What a file adds -/

/-- What a file that is written puts under a name. -/
def placed (path : FilePath) (content : String) (names : List String) : Option Entry :=
  if names = path.names then some (.file content)
  else if names <+: path.names then some .directory
  else none

/-- The path can be written: nothing is in the way. -/
structure Fits (tree : FileTree) (path : FilePath) : Prop where
  /-- No file stands where a directory has to be. -/
  reachable : ∀ front, front <+: path.names → front ≠ path.names → ∀ text,
    tree.get? front ≠ some (.file text)
  /-- No directory stands where the file goes. -/
  free : tree.get? path.names ≠ some .directory
  /-- Nothing stands where the file is written first. -/
  vacant : tree.get? (temporary path).names = none

/-- The directories that a path leads through, and its names at the end of them. -/
theorem exists_above (ends : path.Ends front name) (down : .up ∉ path.components) :
    ∃ lead above,
      (lead = [] ∨ lead = [FilePath.Component.root] ∨ lead = [FilePath.Component.here]) ∧
      FilePath.componentsOf front = lead ++ above.map .entry ∧ path.names = above ++ [name] ∧
      (temporary path).names = above ++ [temporaryName name] ∧
      .up ∉ (temporary path).components := by
  rw [ends.components, List.mem_append, not_or] at down
  obtain ⟨lead, form, split_⟩ := FilePath.componentsOf_of_downward down.1
  refine ⟨lead, _, form, split_, ends.names, (ends_temporary ends).names, ?_⟩
  rw [(ends_temporary ends).components, List.mem_append, not_or]
  exact ⟨down.1, by simp⟩

theorem not_concat_prefix (above : List String) (name : String) : ¬above ++ [name] <+: above := by
  intro below
  have := below.length_le
  rw [List.length_append, List.length_singleton] at this
  omega

/-- A file that fits can be written and adds itself with the directories it stands in. -/
theorem Fits.exists_write (fits : Fits tree path) (closed : tree.Closed)
    (ends : path.Ends front name) (down : .up ∉ path.components) (content : String) :
    ∃ last, write path content tree = .ok () last ∧ last.Closed ∧
      ∀ names, last.get? names = (placed path content names).or (tree.get? names) := by
  obtain ⟨lead, above, form, split_, pathNames, tempNames, tempDown⟩ := exists_above ends down
  -- first the directories are made
  have reachable : ∀ front, front <+: above → ∀ text, tree.get? front ≠ some (.file text) :=
    fun front below => fits.reachable front (pathNames ▸ below.trans (List.prefix_append _ _))
      fun same => not_concat_prefix above name (pathNames ▸ same ▸ below)
  obtain ⟨made, madeIs, closedMade, getMade⟩ := closed.exists_makeDirectories form reachable
  have parent : made.get? above = some .directory := by
    rw [getMade, if_pos List.prefix_rfl]
  have vacant : made.get? (temporary path).names = none := by
    rw [getMade, if_neg (tempNames ▸ not_concat_prefix above _), fits.vacant]
  have free : made.get? path.names ≠ some .directory := by
    rw [getMade, if_neg (pathNames ▸ not_concat_prefix above _)]
    exact fits.free
  have pathNamed : path.names ≠ [] := by simp [pathNames]
  have tempNamed : (temporary path).names ≠ [] := by simp [tempNames]
  have pathParent : made.get? path.names.dropLast = some .directory := by
    rw [pathNames, List.dropLast_concat, parent]
  have tempParent : made.get? (temporary path).names.dropLast = some .directory := by
    rw [tempNames, List.dropLast_concat, parent]
  -- then the file is written beside its place
  have closedWritten : (made.put (temporary path).names (.file content)).Closed :=
    closedMade.put tempParent (.inr (by rw [vacant]; simp))
  have getWritten : ∀ names,
      (made.put (temporary path).names (.file content)).get? names =
        if names = (temporary path).names then some (.file content) else made.get? names :=
    fun names => get?_put_of_ne_nil tempNamed
  have parent' : (made.put (temporary path).names (.file content)).get? above =
      some .directory := by
    rw [getWritten, if_neg, parent]
    intro same
    have := congrArg List.length (same.trans tempNames)
    simp at this
  -- and at last it is moved there
  have oldAt := closedWritten.locate_of_parent (ends_temporary ends) tempDown
    (by rw [tempNames, List.dropLast_concat, ← tempNames, parent'])
  have newAt := closedWritten.locate_of_parent ends down
    (by rw [pathNames, List.dropLast_concat, parent'])
  have written : (made.put (temporary path).names (.file content)).get? (temporary path).names =
      some (.file content) := by
    rw [getWritten, if_pos rfl]
  have moved := rename_eq_of_locate ends oldAt newAt written
    (by rw [getWritten]; split; · simp
        · exact free)
  refine ⟨_, (write_eq_ok_iff ends).2 ⟨made, _, split_ ▸ madeIs,
    FileTree.write_eq_ok_iff.2 ⟨_, closedMade.locate_of_parent (ends_temporary ends) tempDown
      tempParent, by rw [vacant]; simp, rfl⟩, moved⟩,
    (closedMade.put pathParent (.inr free)).of_get?_eq
      (get?_moved tempNamed pathNamed vacant), fun names => ?_⟩
  rw [get?_moved tempNamed pathNamed vacant, get?_put_of_ne_nil pathNamed, getMade, placed]
  by_cases itself : names = path.names
  · rw [if_pos itself, if_pos itself, Option.some_or]
  · rw [if_neg itself, if_neg itself]
    have iff_ : names <+: path.names ↔ names <+: above := by
      rw [pathNames] at itself ⊢
      rw [List.prefix_concat_iff]
      exact or_iff_right itself
    by_cases below : names <+: above
    · rw [if_pos below, if_pos (iff_.2 below), Option.some_or]
    · rw [if_neg below, if_neg (mt iff_.1 below), Option.none_or]

/-- Only a file that fits can be written. -/
theorem Tidy.fits_of_write (tidy : Tidy tree) (ends : path.Ends front name)
    (down : .up ∉ path.components) {content : String}
    (h : write path content tree = .ok () last) : Fits tree path := by
  obtain ⟨lead, above, form, split_, pathNames, tempNames, tempDown⟩ := exists_above ends down
  obtain ⟨made, written, first, second, third⟩ := (write_eq_ok_iff ends).1 h
  obtain ⟨closedMade, grows⟩ := tidy.closed.makeDirectoriesBack first
  obtain ⟨temp, tempAt, tempFree, rfl⟩ := FileTree.write_eq_ok_iff.1 second
  obtain ⟨old, new, text, oldAt, newAt, present, newFree, rfl⟩ := exists_of_rename third
  have tempIs := names_of_locate (ends_temporary ends) tempDown tempAt
  have newIs := names_of_locate ends down newAt
  subst temp new
  have parent := closedMade.directory_of_walk rfl (walk_of_locate tempAt)
  rw [tempNames, List.dropLast_concat] at parent
  have stays : ∀ names, tree.get? names = some .directory →
      made.get? names = some .directory := by
    intro names directory
    obtain same | ⟨absent, -⟩ := grows names
    · rw [same, directory]
    · rw [directory] at absent
      cases absent
  refine ⟨fun front below proper text present => ?_, fun directory => newFree ?_, ?_⟩
  · -- what the path leads through are directories by the time the file is written
    rw [pathNames] at below proper
    have within := (List.prefix_concat_iff.1 below).resolve_left proper
    rw [← grows.file_iff] at present
    by_cases same : front = above
    · rw [same, parent] at present
      cases present
    · have directory := closedMade.directory_of_prefix (by rw [parent]; simp) within same
      rw [directory] at present
      cases present
  · rw [get?_put_of_ne_nil (by simp [tempNames]), if_neg, stays _ directory]
    intro same
    exact tempFree (same ▸ stays _ directory)
  · exact tidy.vacant ends fun directory => tempFree (stays _ directory)

/-- What is there after a file was written is the file with its directories, and else what was there
before. -/
theorem Tidy.get?_of_write (tidy : Tidy tree) (ends : path.Ends front name)
    (down : .up ∉ path.components) {content : String}
    (h : write path content tree = .ok () last) (names : List String) :
    last.get? names = (placed path content names).or (tree.get? names) := by
  obtain ⟨other, result, -, get_⟩ :=
    (tidy.fits_of_write ends down h).exists_write tidy.closed ends down content
  rw [h] at result
  cases result
  exact get_ names

/-- What is there after a directory was cleared is what was there before outside of it. -/
theorem Tidy.get?_of_clear (tidy : Tidy tree) (ends : path.Ends front name)
    (down : .up ∉ path.components) (h : clear path tree = .ok () last) (names : List String) :
    last.get? names = if path.names <+: names then none else tree.get? names := by
  obtain ⟨done, rfl⟩ := clear_eq_ok_iff.1 h
  refine (tidy.closed.clear_eq ends down fun text present => ?_).2 names
  -- clearing a file fails
  have reached := tidy.closed.locate_of_parent ends down
    (tidy.closed _ (by rw [present]; simp))
  rw [FileTree.clear, reached] at done
  simp only [present] at done
  cases done

end Disk

namespace DiskStep

open FileTree Disk

theorem runAll_cons {step : DiskStep} {rest : List DiskStep} {tree last : FileTree} :
    runAll (step :: rest) tree = .ok () last ↔
      ∃ between, step.run tree = .ok () between ∧ runAll rest between = .ok () last :=
  bind_eq_ok_iff

/-- Whether the names lie in one of these directories. -/
def Within (directories : List FilePath) (names : List String) : Prop :=
  ∃ directory ∈ directories, directory.names <+: names

instance (directories : List FilePath) (names : List String) :
    Decidable (Within directories names) :=
  inferInstanceAs (Decidable (∃ directory ∈ directories, directory.names <+: names))

/-- What files that are written one after another put under a name. -/
def written : List (FilePath × String) → List String → Option Entry
  | [], _ => none
  | (path, content) :: rest, names => (written rest names).or (placed path content names)

theorem ite_within_cons (directory : FilePath) (rest : List FilePath) (names : List String)
    (entry : Option Entry) :
    (if Within rest names then none else if directory.names <+: names then none else entry) =
      if Within (directory :: rest) names then none else entry := by
  have iff_ : Within (directory :: rest) names ↔ directory.names <+: names ∨ Within rest names := by
    simp [Within]
  by_cases within : Within rest names
  · rw [if_pos within, if_pos (iff_.2 (.inr within))]
  · rw [if_neg within]
    by_cases here : directory.names <+: names
    · rw [if_pos here, if_pos (iff_.2 (.inl here))]
    · rw [if_neg here, if_neg (mt iff_.1 (not_or.2 ⟨here, within⟩))]

/-- A path that ends in a name and leads downwards. -/
structure Regular (path : FilePath) : Prop where
  /-- It ends in a name. -/
  named : ∃ front name, path.Ends front name
  /-- It does not lead upwards. -/
  downward : .up ∉ path.components

/-- No file, and no temporary one, stands on the way to another file. -/
def Apart (files : List FilePath) : Prop :=
  ∀ path ∈ files, ∀ other ∈ files,
    (path.names <+: other.names → path.names = other.names) ∧
      ¬(temporary path).names <+: other.names

/-- A file that is written leaves room for the others. -/
theorem fits_of_placed {tree last : FileTree} {path other : FilePath} {content : String}
    (fits : Fits tree other)
    (get_ : ∀ names, last.get? names = (placed path content names).or (tree.get? names))
    (above : path.names <+: other.names → path.names = other.names)
    (below : other.names <+: path.names → other.names = path.names)
    (temp : ¬(temporary other).names <+: path.names) : Fits last other := by
  refine ⟨fun front before proper text => ?_, ?_, ?_⟩
  · rw [get_, placed]
    split
    · next same => exact absurd (same.trans (above (same ▸ before))) proper
    · split
      · simp
      · rw [Option.none_or]
        exact fits.reachable front before proper text
  · rw [get_, placed]
    split
    · simp
    · next differ =>
      rw [if_neg (mt below differ), Option.none_or]
      exact fits.free
  · have differ : (temporary other).names ≠ path.names := by
      intro same
      rw [same] at temp
      exact temp List.prefix_rfl
    rw [get_, placed, if_neg differ, if_neg temp, Option.none_or, fits.vacant]

/-- Files that fit and stay apart can be written one after another. -/
theorem exists_writing {files : List (FilePath × String)} {tree : FileTree}
    (regular : ∀ path ∈ files.map (·.1), Regular path) (apart : Apart (files.map (·.1)))
    (closed : tree.Closed) (fits : ∀ path ∈ files.map (·.1), Fits tree path) :
    ∃ last, runAll (files.map fun (path, content) => write path content) tree = .ok () last ∧
      ∀ names, last.get? names = (written files names).or (tree.get? names) := by
  induction files generalizing tree with
  | nil => exact ⟨tree, rfl, fun names => rfl⟩
  | cons file rest ih =>
    obtain ⟨path, content⟩ := file
    have first : path ∈ ((path, content) :: rest).map (·.1) := List.mem_cons_self
    obtain ⟨⟨front, name, ends⟩, down⟩ := regular path first
    obtain ⟨between, step, closed', get_⟩ :=
      (fits path first).exists_write closed ends down content
    have tail : ∀ other ∈ rest.map (·.1), other ∈ ((path, content) :: rest).map (·.1) :=
      fun other member => List.mem_cons_of_mem _ member
    obtain ⟨last, steps, getLast⟩ := ih (fun other member => regular other (tail other member))
      (fun other member another member' =>
        apart other (tail other member) another (tail another member')) closed'
      fun other member => fits_of_placed (fits other (tail other member)) get_
        (apart path first other (tail other member)).1
        (apart other (tail other member) path first).1
        (apart other (tail other member) path first).2
    refine ⟨last, runAll_cons.2 ⟨between, step, steps⟩, fun names => ?_⟩
    rw [getLast, get_, written, Option.or_assoc]

/-- Directories that are no files can be cleared one after another. -/
theorem exists_clearing {directories : List FilePath} {tree : FileTree}
    (regular : ∀ path ∈ directories, Regular path) (closed : tree.Closed)
    (clearable : ∀ path ∈ directories, ∀ text, tree.get? path.names ≠ some (.file text)) :
    ∃ last, runAll (directories.map clear) tree = .ok () last ∧ last.Closed ∧
      ∀ names, last.get? names =
        if Within directories names then none else tree.get? names := by
  induction directories generalizing tree with
  | nil => exact ⟨tree, rfl, closed, fun names => by rw [if_neg (by simp [Within])]⟩
  | cons directory rest ih =>
    obtain ⟨⟨⟨front, name, ends⟩, down⟩, regular⟩ := List.forall_mem_cons.1 regular
    obtain ⟨notFile, clearable⟩ := List.forall_mem_cons.1 clearable
    obtain ⟨done, get_⟩ := closed.clear_eq ends down notFile
    obtain ⟨last, steps, closed', getLast⟩ := ih regular (closed.clear directory)
      fun path member text => by
        rw [get_]
        split
        · simp
        · exact clearable path member text
    refine ⟨last, runAll_cons.2 ⟨_, clear_eq_ok_iff.2 ⟨done, rfl⟩, steps⟩, closed',
      fun names => ?_⟩
    rw [getLast, get_, ite_within_cons]

/-- The tree has room for a batch: once its directories are cleared, nothing is in the way of its
files. -/
structure Room (tree : FileTree) (directories : List FilePath)
    (files : List (FilePath × String)) : Prop where
  /-- What is to be cleared is no file. -/
  clearable : ∀ path ∈ directories, ∀ text, tree.get? path.names ≠ some (.file text)
  /-- No file stands where a directory has to be. -/
  reachable : ∀ path ∈ files.map (·.1), ∀ front, front <+: path.names → front ≠ path.names →
    ¬Within directories front → ∀ text, tree.get? front ≠ some (.file text)
  /-- No directory stands where a file goes, or where it is written first. -/
  free : ∀ path ∈ files.map (·.1), ∀ names ∈ [path.names, (temporary path).names],
    ¬Within directories names → tree.get? names ≠ some .directory

/-- The empty tree has room for every batch. -/
theorem room_empty {directories : List FilePath} {files : List (FilePath × String)}
    (named : ∀ path ∈ files.map (·.1), ∃ front name, path.Ends front name) :
    Room FileTree.empty directories files := by
  have noFile : ∀ names text, FileTree.empty.get? names ≠ some (.file text) := by
    intro names text present
    obtain ⟨_, _, rfl, -⟩ := tidy_empty.sources names text present
    rw [get?_empty (by simp)] at present
    cases present
  refine ⟨fun path _ => noFile path.names, fun path _ front _ _ _ => noFile front,
    fun path member names among _ directory => ?_⟩
  obtain ⟨front, name, ends⟩ := named path member
  rw [get?_empty] at directory
  · cases directory
  · simp only [List.mem_cons, List.not_mem_nil, or_false] at among
    obtain among | among := among <;> rw [among]
    · simp [ends.names]
    · simp [(ends_temporary ends).names]

theorem runAll_append {first rest : List DiskStep} {tree last : FileTree} :
    runAll (first ++ rest) tree = .ok () last ↔
      ∃ between, runAll first tree = .ok () between ∧ runAll rest between = .ok () last := by
  induction first generalizing tree with
  | nil =>
    constructor
    · exact fun h => ⟨tree, rfl, h⟩
    · rintro ⟨_, same, h⟩
      cases same
      exact h
  | cons step first ih =>
    simp only [List.cons_append, runAll_cons, ih]
    constructor
    · rintro ⟨start, head, between, tail, others⟩
      exact ⟨between, ⟨start, head, tail⟩, others⟩
    · rintro ⟨between, ⟨start, head, tail⟩, others⟩
      exact ⟨start, head, between, tail, others⟩

/-- Steps that succeed and write only source files keep a tree tidy. -/
theorem tidy_of_runAll {steps : List DiskStep} {tree last : FileTree}
    (sources : ∀ path content, write path content ∈ steps → sourceSuffix <:+ path.text.toList)
    (tidy : Tidy tree) (h : runAll steps tree = .ok () last) : Tidy last := by
  induction steps generalizing tree with
  | nil =>
    cases h
    exact tidy
  | cons step rest ih =>
    obtain ⟨between, first, others⟩ := runAll_cons.1 h
    refine ih (fun path content member => sources path content (List.mem_cons_of_mem _ member))
      ?_ others
    cases step with
    | clear directory => exact tidy_of_clear tidy first
    | write path content =>
      obtain ⟨front, name, ends, source⟩ :=
        exists_ends_of_source (sources path content List.mem_cons_self)
      exact tidy_of_write tidy ends source first

/-- A batch whose files stay apart succeeds where there is room for it. -/
theorem exists_run {directories : List FilePath} {files : List (FilePath × String)}
    {tree : FileTree} (regularDirectories : ∀ path ∈ directories, Regular path)
    (regular : ∀ path ∈ files.map (·.1), Regular path) (apart : Apart (files.map (·.1)))
    (tidy : Tidy tree) (room : Room tree directories files) :
    ∃ last, runAll (directories.map clear ++ files.map fun (path, content) => write path content)
      tree = .ok () last := by
  obtain ⟨between, clearing, closed, getBetween⟩ :=
    exists_clearing regularDirectories tidy.closed room.clearable
  have fits : ∀ path ∈ files.map (·.1), Fits between path := by
    intro path member
    refine ⟨fun front before proper text => ?_, ?_, ?_⟩
    · rw [getBetween]
      split
      · simp
      · next outside => exact room.reachable path member front before proper outside text
    · rw [getBetween]
      split
      · simp
      · next outside => exact room.free path member _ List.mem_cons_self outside
    · rw [getBetween]
      split
      · rfl
      · next outside =>
        obtain ⟨⟨front, name, ends⟩, -⟩ := regular path member
        exact tidy.vacant ends (room.free path member _ (by simp) outside)
  obtain ⟨last, writing, -⟩ := exists_writing regular apart closed fits
  exact ⟨last, runAll_append.2 ⟨between, clearing, writing⟩⟩

/-- What is there after a batch: its files with their directories, and around them what was there
before outside of the directories that were cleared. -/
theorem get?_of_runAll {directories : List FilePath} {files : List (FilePath × String)}
    {tree last : FileTree} (regularDirectories : ∀ path ∈ directories, Regular path)
    (regular : ∀ path ∈ files.map (·.1), Regular path)
    (sources : ∀ path ∈ files.map (·.1), sourceSuffix <:+ path.text.toList) (tidy : Tidy tree)
    (h : runAll (directories.map clear ++ files.map fun (path, content) => write path content)
      tree = .ok () last) (names : List String) :
    last.get? names =
      (written files names).or (if Within directories names then none else tree.get? names) := by
  induction directories generalizing tree with
  | cons directory rest ih =>
    obtain ⟨between, first, others⟩ := runAll_cons.1 h
    obtain ⟨⟨⟨front, name, ends⟩, down⟩, regularDirectories⟩ :=
      List.forall_mem_cons.1 regularDirectories
    rw [ih regularDirectories (tidy_of_clear tidy first) others, tidy.get?_of_clear ends down first,
      ite_within_cons]
  | nil =>
    rw [if_neg (by simp [Within])]
    induction files generalizing tree with
    | nil =>
      cases h
      rfl
    | cons file rest ih =>
      obtain ⟨path, content⟩ := file
      obtain ⟨between, first, others⟩ := runAll_cons.1 h
      obtain ⟨⟨⟨front, name, ends⟩, down⟩, regular⟩ := List.forall_mem_cons.1 regular
      obtain ⟨source, sources⟩ := List.forall_mem_cons.1 sources
      rw [ih regular sources
        (tidy_of_write tidy ends (ends.suffix source (by decide)) first) others,
        tidy.get?_of_write ends down first, written, Option.or_assoc]

/-- Files come from the batch that was written. -/
theorem mem_of_written {files : List (FilePath × String)} {names : List String} {text : String}
    (h : written files names = some (.file text)) :
    ∃ path, (path, text) ∈ files ∧ path.names = names := by
  induction files with
  | nil => cases h
  | cons file rest ih =>
    obtain ⟨path, content⟩ := file
    rw [written, Option.or_eq_some_iff] at h
    obtain later | ⟨-, here⟩ := h
    · obtain ⟨other, member, same⟩ := ih later
      exact ⟨other, List.mem_cons_of_mem _ member, same⟩
    · rw [placed] at here
      split at here
      · next same =>
        cases here
        exact ⟨path, List.mem_cons_self, same.symm⟩
      · split at here <;> cases here

end DiskStep

end Slotwise
