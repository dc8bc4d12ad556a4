import Slotwise.Proofs.Leading
import Slotwise.Proofs.Sink
/-!
# Effects of steps on disk

What a batch does to the files of a tree, whatever stands there already: below a root that can be
followed, each step reaches the place that its path leads to and no other. Clearing a directory takes
along what is in it; writing a file puts its text in place, takes away the file that it was written to
first, and leaves all other files as they were.

Main statements: which files are there after a batch, and with which text (`file_iff_of_batch`), and
that a root that survives clearing is followed all the way (`get?_of_clearing`).
-/

namespace Slotwise

open FileTree Disk DiskStep

namespace FileTree

variable {tree : FileTree} {names : List String}

/-- The tree with nothing at and below these places. -/
def without (tree : FileTree) (places : List (List String)) : FileTree :=
  ⟨tree.entries.filter fun entry => !places.any (·.isPrefixOf entry.1)⟩

theorem get?_without {places : List (List String)} (named : [] ∉ places) :
    (tree.without places).get? names =
      if ∃ place ∈ places, place <+: names then none else tree.get? names := by
  by_cases top : names = []
  · rw [top, get?_nil, get?_nil, if_neg]
    rintro ⟨place, member, before⟩
    exact named (List.prefix_nil.1 before ▸ member)
  simp only [get?, without, if_neg top]
  by_cases below : ∃ place ∈ places, place <+: names
  · rw [if_pos below]
    exact lookup_filter_of_drop fun _ => by simpa using below
  · rw [if_neg below]
    exact lookup_filter_of_keep fun _ => by simpa using below

/-- A file at the end of a path can be read there. -/
theorem Closed.read_eq (closed : Closed tree) {path : FilePath} {front : List Char} {name : String}
    (ends : path.Ends front name) (leads : tree.LeadsTo path.components names) {text : String}
    (present : tree.get? names = some (.file text)) : tree.read path = .ok text := by
  have open_ : ∀ front, front <+: names → front ≠ names → tree.get? front = some .directory :=
    fun front before proper =>
      closed.directory_of_prefix (by rw [present]; exact Option.some_ne_none _) before proper
  simp only [read, locate_eq_walk tree ends, leads.walk open_, present]

end FileTree

/-! ## One step -/

variable {tree last : FileTree} {root path : FilePath} {base : List String}

/-- Writing a file where its path leads to before it is there. -/
theorem writes_of_write (closed : tree.Closed) {front : List Char} {name : String}
    (ends : path.Ends front name) {above : List String}
    (leads : tree.LeadsTo (FilePath.componentsOf front) above) {content : String}
    (h : Disk.write path content tree = .ok () last) :
    Writes tree last (above ++ [name]) (above ++ [temporaryName name]) content := by
  obtain ⟨reached, through, writes⟩ := exists_writes closed ends h
  rwa [(leads.mono writes.kept).eq_of_walk through] at writes

/-- Writing a file below a root puts it where its path leads from there. -/
theorem writes_of_local (closed : tree.Closed) (leads : tree.LeadsTo root.components base)
    (inside : path.Local) {content : String}
    (h : Disk.write (below root path) content tree = .ok () last) :
    Writes tree last (base ++ path.names) (base ++ (temporary path).names) content := by
  obtain ⟨front, name, ends⟩ := inside.named
  obtain ⟨longer, endsBelow⟩ := ends.push inside.relative root
  have leadsPath := leads.push inside.relative inside.downward
  rw [endsBelow.components, leadsTo_concat_iff, ends.names, ← List.append_assoc] at leadsPath
  obtain ⟨above, leadsAbove, same⟩ := leadsPath
  obtain ⟨rfl, -⟩ := List.append_inj' same rfl
  rw [ends.names, (ends_temporary ends).names, ← List.append_assoc, ← List.append_assoc]
  exact writes_of_write closed endsBelow leadsAbove h

/-- Clearing a directory below a root takes everything at and below its place along. -/
theorem get?_of_clear_local (closed : tree.Closed) (leads : tree.LeadsTo root.components base)
    (inside : path.Local) (h : Disk.clear (below root path) tree = .ok () last) :
    last.Closed ∧ ∀ names, last.get? names =
      if base ++ path.names <+: names then none else tree.get? names := by
  obtain ⟨front, name, ends⟩ := inside.named
  obtain ⟨longer, endsBelow⟩ := ends.push inside.relative root
  obtain ⟨done, rfl⟩ := clear_eq_ok_iff.1 h
  exact ⟨closed.clear _, fun names => closed.get?_of_clear endsBelow
    (leads.push inside.relative inside.downward) done names⟩

/-! ## Clearing directories -/

/-- The places that directories lead to below a base. -/
def placesBelow (base : List String) (directories : List FilePath) : List (List String) :=
  directories.map fun directory => base ++ directory.names

theorem nil_not_mem_placesBelow {directories : List FilePath}
    (inside : ∀ path ∈ directories, path.Local) : [] ∉ placesBelow base directories := by
  intro member
  obtain ⟨directory, among, same⟩ := List.mem_map.1 member
  obtain ⟨front, name, ends⟩ := (inside directory among).named
  rw [ends.names] at same
  simp at same

/-- Clearing directories below a root that survives it takes along what is at and below their places
and nothing else. -/
theorem get?_of_clearing {directories : List FilePath}
    (inside : ∀ path ∈ directories, path.Local) (closed : tree.Closed)
    (leads : (tree.without (placesBelow base directories)).LeadsTo root.components base)
    (h : runAll (clearing root directories) tree = .ok () last) :
    last.Closed ∧ last.LeadsTo root.components base ∧ ∀ names, last.get? names =
      if ∃ place ∈ placesBelow base directories, place <+: names then none
      else tree.get? names := by
  induction directories generalizing tree with
  | nil =>
    cases h
    refine ⟨closed, leads.mono fun names there => ?_, fun names => ?_⟩
    · rwa [get?_without (by simp [placesBelow]), if_neg (by simp [placesBelow])] at there
    · rw [if_neg (by simp [placesBelow])]
  | cons directory rest ih =>
    obtain ⟨between, first, others⟩ := runAll_cons.1 h
    obtain ⟨head, tail⟩ := List.forall_mem_cons.1 inside
    have named : [] ∉ placesBelow base (directory :: rest) := nil_not_mem_placesBelow inside
    have within : ∀ names, (∃ place ∈ placesBelow base (directory :: rest), place <+: names) ↔
        base ++ directory.names <+: names ∨ ∃ place ∈ placesBelow base rest, place <+: names := by
      simp [placesBelow]
    have here : tree.LeadsTo root.components base := leads.mono fun names there => by
      rw [get?_without named] at there
      split at there
      · cases there
      · exact there
    obtain ⟨closedBetween, getBetween⟩ := get?_of_clear_local closed here head first
    have survives : (between.without (placesBelow base rest)).LeadsTo root.components base := by
      refine leads.mono fun names there => ?_
      rw [get?_without named, ite_eq_iff] at there
      obtain ⟨-, none⟩ | ⟨outside, there⟩ := there
      · cases none
      · rw [within, not_or] at outside
        rw [get?_without (nil_not_mem_placesBelow tail), if_neg outside.2, getBetween,
          if_neg outside.1, there]
    obtain ⟨closedLast, leadsLast, getLast⟩ := ih tail closedBetween survives others
    refine ⟨closedLast, leadsLast, fun names => ?_⟩
    rw [getLast, getBetween]
    by_cases later : ∃ place ∈ placesBelow base rest, place <+: names
    · rw [if_pos later, if_pos ((within names).2 (.inr later))]
    · rw [if_neg later]
      by_cases now : base ++ directory.names <+: names
      · rw [if_pos now, if_pos ((within names).2 (.inl now))]
      · rw [if_neg now, if_neg (mt (within names).1 (not_or.2 ⟨now, later⟩))]

/-! ## Writing files -/

/-- The text of the last of the files whose path leads to these names from a base. -/
def lastContent (base : List String) : List (FilePath × String) → List String → Option String
  | [], _ => none
  | file :: rest, names =>
    (lastContent base rest names).or (if names = base ++ file.1.names then some file.2 else none)

variable {files : List (FilePath × String)}

theorem lastContent_eq_none_iff {names : List String} :
    lastContent base files names = none ↔ ∀ file ∈ files, names ≠ base ++ file.1.names := by
  induction files with
  | nil => simp [lastContent]
  | cons file rest ih => simp [lastContent, ih, and_comm]

/-- The last file on its path counts. -/
theorem lastContent_append_cons {before after : List (FilePath × String)} {file : FilePath × String}
    (latest : ∀ later ∈ after, later.1.names ≠ file.1.names) :
    lastContent base (before ++ file :: after) (base ++ file.1.names) = some file.2 := by
  induction before with
  | nil =>
    have others : lastContent base after (base ++ file.1.names) = none :=
      lastContent_eq_none_iff.2 fun later member same =>
        latest later member (List.append_cancel_left same).symm
    rw [List.nil_append, lastContent, others, if_pos rfl, Option.none_or]
  | cons first rest ih => rw [List.cons_append, lastContent, ih, Option.some_or]

/-- The last of several files on one path is written last. -/
theorem mem_of_lastContent {names : List String} {text : String}
    (h : lastContent base files names = some text) :
    ∃ file ∈ files, names = base ++ file.1.names ∧ file.2 = text := by
  induction files with
  | nil => cases h
  | cons file rest ih =>
    rw [lastContent, Option.or_eq_some_iff] at h
    obtain later | ⟨-, here⟩ := h
    · obtain ⟨other, member, found⟩ := ih later
      exact ⟨other, List.mem_cons_of_mem _ member, found⟩
    · split at here
      · next same => exact ⟨file, List.mem_cons_self, same, Option.some.inj here⟩
      · cases here

/-- No file is put where another one is written first. -/
def TempsApart (files : List FilePath) : Prop :=
  ∀ path ∈ files, ∀ other ∈ files, (temporary path).names ≠ other.names

/-- Writing files below a root: each path holds its last text, no file is left where one was written
first, and all other files stay. -/
theorem file_iff_of_writing (inside : ∀ path ∈ files.map (·.1), path.Local)
    (apart : TempsApart (files.map (·.1))) (closed : tree.Closed)
    (leads : tree.LeadsTo root.components base)
    (h : runAll (files.map fun file => write (below root file.1) file.2) tree = .ok () last) :
    last.Closed ∧ last.LeadsTo root.components base ∧ ∀ names text,
      last.get? names = some (.file text) ↔
        lastContent base files names = some text ∨
          lastContent base files names = none ∧
            (∀ file ∈ files, names ≠ base ++ (temporary file.1).names) ∧
            tree.get? names = some (.file text) := by
  induction files generalizing tree with
  | nil =>
    cases h
    exact ⟨closed, leads, fun names text => by simp [lastContent]⟩
  | cons file rest ih =>
    obtain ⟨between, first, others⟩ := runAll_cons.1 h
    obtain ⟨head, tail⟩ := List.forall_mem_cons.1 inside
    have writes := writes_of_local closed leads head first
    obtain ⟨closedLast, leadsLast, fileLast⟩ := ih tail
      (fun path member other among => apart path (List.mem_cons_of_mem _ member) other
        (List.mem_cons_of_mem _ among)) writes.closed (leads.mono writes.kept) others
    refine ⟨closedLast, leadsLast, fun names text => ?_⟩
    rw [fileLast, writes.file_iff, lastContent, List.forall_mem_cons]
    cases later : lastContent base rest names with
    | some content => simp
    | none =>
      rw [Option.none_or]
      by_cases itself : names = base ++ file.1.names
      · -- later files are not written first to where this one is
        have free : ∀ other ∈ rest, names ≠ base ++ (temporary other.1).names := by
          intro other member same
          exact apart other.1 (List.mem_cons_of_mem _ (List.mem_map_of_mem member)) file.1
            List.mem_cons_self (List.append_cancel_left (same.symm.trans itself))
        rw [if_pos itself, if_pos itself]
        simp only [reduceCtorEq, false_or, false_and, or_false, true_and, Option.some.injEq]
        exact ⟨fun written => written.2.symm, fun same => ⟨free, same.symm⟩⟩
      · rw [if_neg itself, if_neg itself]
        simp [and_assoc, and_comm, and_left_comm]

/-! ## Batches -/

/-- What a batch that was written leaves of files: the last text on each of its paths, no temporary
file, nothing else in the directories that were cleared, and all other files as they were. -/
theorem file_iff_of_batch {directories : List FilePath}
    (insideDirectories : ∀ path ∈ directories, path.Local)
    (inside : ∀ path ∈ files.map (·.1), path.Local) (apart : TempsApart (files.map (·.1)))
    (closed : tree.Closed)
    (leads : (tree.without (placesBelow base directories)).LeadsTo root.components base)
    (h : runAll (replacing root directories files) tree = .ok () last) :
    last.Closed ∧ last.LeadsTo root.components base ∧ ∀ names text,
      last.get? names = some (.file text) ↔
        lastContent base files names = some text ∨
          lastContent base files names = none ∧
            (∀ file ∈ files, names ≠ base ++ (temporary file.1).names) ∧
            (∀ place ∈ placesBelow base directories, ¬place <+: names) ∧
            tree.get? names = some (.file text) := by
  obtain ⟨between, cleared, written⟩ := runAll_append.1 h
  obtain ⟨closedBetween, leadsBetween, getBetween⟩ :=
    get?_of_clearing insideDirectories closed leads cleared
  obtain ⟨closedLast, leadsLast, fileLast⟩ :=
    file_iff_of_writing inside apart closedBetween leadsBetween written
  refine ⟨closedLast, leadsLast, fun names text => ?_⟩
  rw [fileLast, getBetween, ite_eq_iff]
  simp

end Slotwise
