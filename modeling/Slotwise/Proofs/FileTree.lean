import Mathlib.Data.List.Induction
import Slotwise.FileTree
import Slotwise.Proofs.FileName
/-!
# Operations on file trees

Every operation keeps a tree closed: what stands in it stands in a directory. On a closed tree, a path
that never leads upwards reaches the names it is made of, so that what an operation does can be said
name by name.

Main statements: what stands under a name once directories were made (`exists_makeDirectories`).
-/

namespace Slotwise.FileTree

variable {tree other : FileTree} {names front : List String}

/-- Every entry stands in a directory. -/
def Closed (tree : FileTree) : Prop :=
  ∀ names, tree.get? names ≠ none → tree.get? names.dropLast = some .directory

@[simp] theorem get?_nil (tree : FileTree) : tree.get? [] = some .directory := rfl

theorem get?_empty (h : names ≠ []) : empty.get? names = none := by
  rw [get?, if_neg h]
  rfl

theorem closed_empty : Closed empty := by
  intro names present
  by_cases top : names = []
  · rw [top]
    rfl
  · exact absurd (get?_empty top) present

theorem closed_of_forall_entries
    (h : ∀ entry ∈ tree.entries, tree.get? entry.1.dropLast = some .directory) : Closed tree := by
  intro names present
  by_cases top : names = []
  · rw [top]
    rfl
  · rw [get?, if_neg top] at present
    obtain ⟨entry, found⟩ := Option.ne_none_iff_exists'.1 present
    obtain ⟨before, after, split_, -⟩ := List.lookup_eq_some_iff.1 found
    exact h (names, entry) (by rw [split_]; simp)

/-- What lies on the way to an entry are directories. -/
theorem Closed.directory_of_append (closed : Closed tree) {rest : List String}
    (present : tree.get? (names ++ rest) ≠ none) (below : rest ≠ []) :
    tree.get? names = some .directory := by
  induction rest using List.reverseRecOn with
  | nil => exact absurd rfl below
  | append_singleton before last ih =>
    have parent := closed _ present
    rw [← List.append_assoc, List.dropLast_concat] at parent
    by_cases done : before = []
    · rw [done, List.append_nil] at parent
      exact parent
    · exact ih (by rw [parent]; exact Option.some_ne_none _) done

theorem Closed.directory_of_prefix (closed : Closed tree) (present : tree.get? names ≠ none)
    (before : front <+: names) (proper : front ≠ names) : tree.get? front = some .directory := by
  obtain ⟨rest, rfl⟩ := before
  refine closed.directory_of_append present fun nothing => ?_
  rw [nothing, List.append_nil] at proper
  exact proper rfl

/-! ## What stands under a name after a change of an entry -/

theorem get?_put_of_ne_nil {entry : Entry} {name : List String} (h : names ≠ []) :
    (tree.put names entry).get? name = if name = names then some entry else tree.get? name := by
  by_cases top : name = []
  · rw [top, if_neg h.symm, get?_nil, get?_nil]
  · exact get?_put top

theorem get?_remove_of_ne_nil {name : List String} (h : names ≠ []) :
    (tree.remove names).get? name = if name = names then none else tree.get? name := by
  by_cases top : name = []
  · rw [top, if_neg h.symm, get?_nil, get?_nil]
  · exact get?_remove top

theorem get?_removeBelow_of_ne_nil {name : List String} (h : names ≠ []) :
    (tree.removeBelow names).get? name = if names <+: name then none else tree.get? name := by
  by_cases top : name = []
  · rw [top, if_neg (fun before => h (List.prefix_nil.1 before)), get?_nil, get?_nil]
  · exact get?_removeBelow top

theorem get?_emptyBelow {name : List String} (h : name ≠ []) :
    (tree.emptyBelow names).get? name =
      if names <+: name ∧ name ≠ names then none else tree.get? name := by
  simp only [get?, emptyBelow, h, if_false]
  by_cases below : names <+: name ∧ name ≠ names
  · rw [if_pos below]
    exact lookup_filter_of_drop fun _ => by simpa using below.symm
  · rw [if_neg below]
    refine lookup_filter_of_keep fun _ => ?_
    rw [not_and_or, not_not] at below
    simpa [← List.isPrefixOf_iff_prefix, or_comm] using below

theorem Closed.put {entry : Entry} (closed : Closed tree)
    (parent : tree.get? names.dropLast = some .directory)
    (fits : entry = .directory ∨ tree.get? names ≠ some .directory) :
    Closed (tree.put names entry) := by
  intro name present
  by_cases top : name.dropLast = []
  · rw [top, get?_nil]
  have notTop : name ≠ [] := fun nothing => top (by rw [nothing]; rfl)
  have parent' : tree.get? name.dropLast = some .directory := by
    rw [get?_put notTop] at present
    split at present
    · next same => rwa [same]
    · exact closed name present
  rw [get?_put top]
  split
  · next same =>
    -- the new entry has something below it, so it took the place of a directory
    rw [same] at parent'
    rw [fits.resolve_right (not_not.2 parent')]
  · exact parent'

/-- Whether a tree is closed depends on what stands in it only. -/
theorem Closed.of_get?_eq (closed : Closed tree) (same : ∀ names, other.get? names = tree.get? names) :
    Closed other := by
  intro names present
  rw [same] at present ⊢
  exact closed names present

/-- A file that is put somewhere else first and then moved only stands where it was moved to. -/
theorem get?_moved {temporary target : List String} {entry : Entry} (named : temporary ≠ [])
    (targetNamed : target ≠ []) (vacant : tree.get? temporary = none) (names : List String) :
    (((tree.put temporary entry).remove temporary).put target entry).get? names =
      (tree.put target entry).get? names := by
  rw [get?_put_of_ne_nil targetNamed, get?_put_of_ne_nil targetNamed, get?_remove_of_ne_nil named,
    get?_put_of_ne_nil named]
  by_cases moved : names = temporary
  · rw [if_pos moved, moved, vacant]
  · rw [if_neg moved, if_neg moved]

theorem Closed.remove (closed : Closed tree) (leaf : tree.get? names ≠ some .directory) :
    Closed (tree.remove names) := by
  intro name present
  by_cases top : name.dropLast = []
  · rw [top, get?_nil]
  have notTop : name ≠ [] := fun nothing => top (by rw [nothing]; rfl)
  rw [get?_remove notTop] at present
  split at present
  · exact absurd rfl present
  · have parent := closed name present
    rw [get?_remove top, if_neg, parent]
    intro same
    exact leaf (same ▸ parent)

theorem Closed.removeBelow (closed : Closed tree) : Closed (tree.removeBelow names) := by
  intro name present
  by_cases top : name.dropLast = []
  · rw [top, get?_nil]
  have notTop : name ≠ [] := fun nothing => top (by rw [nothing]; rfl)
  rw [get?_removeBelow notTop] at present
  split at present
  · exact absurd rfl present
  · next outside =>
    rw [get?_removeBelow top, if_neg, closed name present]
    exact fun below => outside (below.trans (List.dropLast_prefix name))

theorem Closed.emptyBelow (closed : Closed tree) : Closed (tree.emptyBelow names) := by
  intro name present
  by_cases top : name.dropLast = []
  · rw [top, get?_nil]
  have notTop : name ≠ [] := fun nothing => top (by rw [nothing]; rfl)
  rw [get?_emptyBelow notTop] at present
  split at present
  · exact absurd rfl present
  · next kept =>
    rw [get?_emptyBelow top, if_neg, closed name present]
    rintro ⟨below, -⟩
    refine kept ⟨below.trans (List.dropLast_prefix name), fun same => ?_⟩
    -- a name is longer than its parent's
    have shorter : name.dropLast.length < name.length := by
      rw [List.length_dropLast]
      have := List.length_pos_iff.2 notTop
      omega
    rw [same] at shorter below
    exact absurd below.length_le (Nat.not_le.2 shorter)

/-! ## Following paths -/

theorem walk_entry (tree : FileTree) (names : List String) (name : String)
    (rest : List FilePath.Component) :
    tree.walk names (.entry name :: rest) =
      match tree.get? names with
      | some .directory => tree.walk (names ++ [name]) rest
      | some (.file _) => .error .notDirectory
      | none => .error .missing := rfl

theorem walk_up (tree : FileTree) (names : List String) (rest : List FilePath.Component) :
    tree.walk names (.up :: rest) =
      match tree.get? names with
      | some .directory => tree.walk names.dropLast rest
      | some (.file _) => .error .notDirectory
      | none => .error .missing := rfl

theorem walk_append (tree : FileTree) (names : List String) (first rest : List FilePath.Component) :
    tree.walk names (first ++ rest) =
      match tree.walk names first with
      | .ok reached => tree.walk reached rest
      | .error error => .error error := by
  induction first generalizing names with
  | nil => rfl
  | cons step first ih =>
    cases step with
    | root => exact ih []
    | here => exact ih names
    | up =>
      rw [List.cons_append, walk_up, walk_up]
      cases tree.get? names with
      | none => rfl
      | some entry => cases entry with
        | directory => exact ih names.dropLast
        | file text => rfl
    | entry name =>
      rw [List.cons_append, walk_entry, walk_entry]
      cases tree.get? names with
      | none => rfl
      | some entry => cases entry with
        | directory => exact ih (names ++ [name])
        | file text => rfl

theorem eq_of_walk {reached : List String} (h : tree.walk front (names.map .entry) = .ok reached) :
    reached = front ++ names := by
  induction names generalizing front with
  | nil =>
    cases h
    exact (List.append_nil _).symm
  | cons name rest ih =>
    rw [List.map_cons, walk_entry] at h
    split at h
    · rw [ih h, List.append_assoc]
      rfl
    · cases h
    · cases h

/-- Directories that are added do not change where a path leads to. -/
theorem walk_of_directories (kept : ∀ names, tree.get? names = some .directory →
      other.get? names = some .directory) {steps : List FilePath.Component}
    (h : tree.walk front steps = .ok names) : other.walk front steps = .ok names := by
  induction steps generalizing front with
  | nil => exact h
  | cons step rest ih =>
    cases step with
    | root => exact ih h
    | here => exact ih h
    | up =>
      rw [walk_up] at h ⊢
      cases here : tree.get? front with
      | none => rw [here] at h; cases h
      | some entry => cases entry with
        | directory =>
          rw [here] at h
          rw [kept _ here]
          exact ih h
        | file text => rw [here] at h; cases h
    | entry name =>
      rw [walk_entry] at h ⊢
      cases here : tree.get? front with
      | none => rw [here] at h; cases h
      | some entry => cases entry with
        | directory =>
          rw [here] at h
          rw [kept _ here]
          exact ih h
        | file text => rw [here] at h; cases h

/-- A path leads into a directory that is there. -/
theorem Closed.directory_of_walk (closed : Closed tree) {steps : List FilePath.Component}
    (start : tree.get? front.dropLast = some .directory) (h : tree.walk front steps = .ok names) :
    tree.get? names.dropLast = some .directory := by
  induction steps generalizing front with
  | nil =>
    cases h
    exact start
  | cons step rest ih =>
    cases step with
    | root => exact ih rfl h
    | here => exact ih start h
    | up =>
      rw [walk_up] at h
      cases here : tree.get? front with
      | none => rw [here] at h; cases h
      | some entry => cases entry with
        | directory =>
          rw [here] at h
          exact ih (closed _ (by rw [start]; exact Option.some_ne_none _)) h
        | file text => rw [here] at h; cases h
    | entry name =>
      rw [walk_entry] at h
      cases here : tree.get? front with
      | none => rw [here] at h; cases h
      | some entry => cases entry with
        | directory =>
          rw [here] at h
          exact ih (by rw [List.dropLast_concat, here]) h
        | file text => rw [here] at h; cases h

/-- What it takes for a path made of names to lead to them: a directory that is there already. -/
theorem Closed.walk_names (closed : Closed tree)
    (open_ : ∀ front, front <+: names → front ≠ names → ∀ text,
      tree.get? front ≠ some (.file text)) :
    tree.walk [] (names.map .entry) =
      if tree.get? names.dropLast = some .directory then .ok names else .error .missing := by
  induction names using List.reverseRecOn with
  | nil => rfl
  | append_singleton before name ih =>
    have notFile := open_ before (List.prefix_append _ _) (by simp)
    have before_open : ∀ front, front <+: before → front ≠ before → ∀ text,
        tree.get? front ≠ some (.file text) := by
      intro front below proper
      refine open_ front (below.trans (List.prefix_append _ _)) fun same => proper ?_
      exact below.eq_of_length_le (by rw [same]; simp)
    rw [List.map_append, walk_append, ih before_open, List.dropLast_concat]
    cases here : tree.get? before with
    | none =>
      by_cases parent : tree.get? before.dropLast = some .directory
      · simp [parent, walk_entry, here]
      · simp [parent]
    | some entry => cases entry with
      | file text => exact absurd here (notFile text)
      | directory =>
        rw [if_pos (closed before (by rw [here]; exact Option.some_ne_none _)), if_pos rfl]
        simp only [List.map_singleton, walk_entry, here]
        rfl

/-! ## Operations that succeed -/

/-- All that may be new are directories. -/
def Grows (tree other : FileTree) : Prop :=
  ∀ names, other.get? names = tree.get? names ∨
    (tree.get? names = none ∧ other.get? names = some .directory)

theorem Grows.refl (tree : FileTree) : Grows tree tree := fun _ => .inl rfl

theorem Grows.trans {last : FileTree} (first : Grows tree other) (second : Grows other last) :
    Grows tree last := by
  intro names
  obtain same | ⟨absent, made⟩ := first names
  · rw [← same]
    exact second names
  · obtain same | ⟨absent', -⟩ := second names
    · exact .inr ⟨absent, same.trans made⟩
    · rw [made] at absent'
      cases absent'

theorem Grows.file_iff (grows : Grows tree other) {text : String} :
    other.get? names = some (.file text) ↔ tree.get? names = some (.file text) := by
  obtain same | ⟨absent, made⟩ := grows names
  · rw [same]
  · rw [absent, made]
    simp

theorem makeDirectory_eq_ok_iff {steps : List FilePath.Component} {made : FileTree} :
    tree.makeDirectory steps = .ok made ↔
      ∃ names, tree.walk [] steps = .ok names ∧ tree.get? names = none ∧
        made = tree.put names .directory := by
  rw [makeDirectory]
  cases tree.walk [] steps with
  | error error => simp
  | ok names =>
    cases present : tree.get? names with
    | none => simp [present, eq_comm]
    | some entry => simp [present]

/-- The tree with a directory where these steps lead to, unless there is one. -/
def makeLast (tree : FileTree) (steps : List FilePath.Component) : Except DiskError FileTree :=
  match tree.makeDirectory steps with
  | .ok made => .ok made
  | .error error => if tree.isDirectory steps then .ok tree else .error error

theorem makeDirectoriesBack_cons (tree : FileTree) (step : FilePath.Component)
    (before : List FilePath.Component) :
    tree.makeDirectoriesBack (step :: before) =
      match tree.makeDirectory (step :: before).reverse with
      | .error .missing =>
        match tree.makeDirectoriesBack before with
        | .ok made => made.makeLast (step :: before).reverse
        | .error error => .error error
      | _ => tree.makeLast (step :: before).reverse := rfl

theorem Closed.makeLast (closed : Closed tree) {steps : List FilePath.Component}
    {made : FileTree} (h : tree.makeLast steps = .ok made) : Closed made ∧ Grows tree made := by
  rw [FileTree.makeLast] at h
  split at h
  · next result =>
    cases h
    obtain ⟨names, reached, absent, rfl⟩ := makeDirectory_eq_ok_iff.1 result
    refine ⟨closed.put (closed.directory_of_walk rfl reached) (.inl rfl), fun name => ?_⟩
    by_cases top : names = []
    · rw [top, get?_nil] at absent
      cases absent
    rw [get?_put_of_ne_nil top]
    split
    · next same => exact .inr ⟨same ▸ absent, rfl⟩
    · exact .inl rfl
  · split at h
    · cases h
      exact ⟨closed, Grows.refl _⟩
    · cases h

theorem Closed.makeDirectoriesBack (closed : Closed tree) {steps : List FilePath.Component}
    {made : FileTree} (h : tree.makeDirectoriesBack steps = .ok made) :
    Closed made ∧ Grows tree made := by
  induction steps generalizing made with
  | nil =>
    cases h
    exact ⟨closed, Grows.refl _⟩
  | cons step before ih =>
    rw [makeDirectoriesBack_cons] at h
    split at h
    · split at h
      · next between result =>
        obtain ⟨closed', grows⟩ := ih result
        obtain ⟨closed'', grows'⟩ := closed'.makeLast h
        exact ⟨closed'', grows.trans grows'⟩
      · cases h
    · exact closed.makeLast h

theorem walk_of_locate {path : FilePath} (h : tree.locate path = .ok names) :
    tree.walk [] path.components = .ok names := by
  rw [locate] at h
  split at h
  · cases h
  · next reached =>
    rw [reached]
    split at h
    · cases h
    · split at h
      · cases h
      · exact h
    · exact h

theorem write_eq_ok_iff {path : FilePath} {text : String} {written : FileTree} :
    tree.write path text = .ok written ↔
      ∃ names, tree.locate path = .ok names ∧ tree.get? names ≠ some .directory ∧
        written = tree.put names (.file text) := by
  rw [write]
  cases tree.locate path with
  | error error => simp
  | ok names =>
    by_cases directory : tree.get? names = some .directory
    · simp [directory]
    · simp only [directory, if_false, Except.ok.injEq, exists_eq_left', ne_eq,
        not_false_eq_true, true_and]
      exact eq_comm

theorem exists_of_rename {source target : FilePath} {moved : FileTree}
    (h : tree.rename source target = .ok moved) :
    ∃ old new text, tree.locate source = .ok old ∧ tree.locate target = .ok new ∧
      tree.get? old = some (.file text) ∧ tree.get? new ≠ some .directory ∧
      moved = (tree.remove old).put new (.file text) := by
  rw [rename] at h
  split at h
  · cases h
  · cases h
  · next old new source_ target_ =>
    split at h
    · next text present =>
      split at h
      · cases h
      · split at h
        · cases h
        · split at h
          · cases h
          · next notDirectory =>
            cases h
            exact ⟨old, new, text, source_, target_, present, notDirectory, rfl⟩
    · cases h
    · cases h

theorem rename_eq_of_locate {source target : FilePath} {front : List Char} {name text : String}
    {old new : List String} (ends : target.Ends front name) (oldAt : tree.locate source = .ok old)
    (newAt : tree.locate target = .ok new) (present : tree.get? old = some (.file text))
    (free : tree.get? new ≠ some .directory) :
    tree.rename source target = .ok ((tree.remove old).put new (.file text)) := by
  have counts := ends.plain.counts
  simp [rename, oldAt, newAt, present, free, ends.lastPiece, ends.namesDirectory, counts]

theorem Closed.clear (closed : Closed tree) (path : FilePath) : Closed (tree.clear path).1 := by
  rw [FileTree.clear]
  split
  · exact closed
  · split
    · exact closed
    · exact closed
    · split
      · exact closed.emptyBelow
      · split
        · exact closed.emptyBelow
        · exact closed.removeBelow

theorem get?_of_clear {path : FilePath} {text : String}
    (h : (tree.clear path).1.get? names = some (.file text)) :
    tree.get? names = some (.file text) := by
  by_cases top : names = []
  · rw [top, get?_nil] at h
    cases h
  have below {reached : List String} (h : (tree.removeBelow reached).get? names =
      some (.file text)) : tree.get? names = some (.file text) := by
    rw [get?_removeBelow top] at h
    split at h
    · cases h
    · exact h
  have inside {reached : List String} (h : (tree.emptyBelow reached).get? names =
      some (.file text)) : tree.get? names = some (.file text) := by
    rw [get?_emptyBelow top] at h
    split at h
    · cases h
    · exact h
  rw [FileTree.clear] at h
  split at h
  · exact h
  · split at h
    · exact h
    · exact h
    · split at h
      · exact inside h
      · split at h
        · exact inside h
        · exact below h

/-! ## Operations on paths that lead downwards -/

theorem walk_lead (tree : FileTree) {lead : List FilePath.Component}
    (form : lead = [] ∨ lead = [.root] ∨ lead = [.here]) (steps : List FilePath.Component) :
    tree.walk [] (lead ++ steps) = tree.walk [] steps := by
  obtain rfl | rfl | rfl := form <;> rfl

/-- Where the directory above is there, making the last one adds it and nothing else. -/
theorem Closed.exists_makeLast (closed : Closed tree) {steps : List FilePath.Component}
    {before : List String} {name : String} (reached : tree.walk [] steps = .ok (before ++ [name]))
    (parent : tree.get? before = some .directory)
    (notFile : ∀ text, tree.get? (before ++ [name]) ≠ some (.file text)) :
    ∃ made, tree.makeLast steps = .ok made ∧ Closed made ∧
      ∀ names, made.get? names =
        if names <+: before ++ [name] then some .directory else tree.get? names := by
  have above : ∀ names, names <+: before → tree.get? names = some .directory := by
    intro names below
    by_cases same : names = before
    · rw [same, parent]
    · exact closed.directory_of_prefix (by rw [parent]; exact Option.some_ne_none _) below same
  cases present : tree.get? (before ++ [name]) with
  | none =>
    refine ⟨tree.put (before ++ [name]) .directory, ?_,
      closed.put (by rw [List.dropLast_concat, parent]) (.inl rfl), fun names => ?_⟩
    · rw [FileTree.makeLast, makeDirectory_eq_ok_iff.2 ⟨_, reached, present, rfl⟩]
    · rw [get?_put_of_ne_nil (by simp)]
      by_cases same : names = before ++ [name]
      · rw [if_pos same, if_pos (same ▸ List.prefix_rfl)]
      · rw [if_neg same]
        split
        · next below => exact above names ((List.prefix_concat_iff.1 below).resolve_left same)
        · rfl
  | some entry => cases entry with
    | file text => exact absurd present (notFile text)
    | directory =>
      refine ⟨tree, ?_, closed, fun names => ?_⟩
      · simp [FileTree.makeLast, makeDirectory, isDirectory, reached, present]
      · split
        · next below =>
          obtain rfl | below := List.prefix_concat_iff.1 below
          · exact present
          · exact above names below
        · rfl

/-- Making directories adds those on the way that are missing and nothing else. -/
theorem Closed.exists_makeDirectories (closed : Closed tree) {lead : List FilePath.Component}
    (form : lead = [] ∨ lead = [.root] ∨ lead = [.here])
    (open_ : ∀ front, front <+: names → ∀ text, tree.get? front ≠ some (.file text)) :
    ∃ made, tree.makeDirectoriesBack (lead ++ names.map FilePath.Component.entry).reverse = .ok made ∧
      Closed made ∧
      ∀ name, made.get? name = if name <+: names then some .directory else tree.get? name := by
  induction names using List.reverseRecOn with
  | nil =>
    refine ⟨tree, ?_, closed, fun name => ?_⟩
    · obtain rfl | rfl | rfl := form <;> rfl
    · split
      · next top => rw [List.prefix_nil.1 top, get?_nil]
      · rfl
  | append_singleton before name ih =>
    have reversed : (lead ++ (before ++ [name]).map FilePath.Component.entry).reverse =
        .entry name :: (lead ++ before.map FilePath.Component.entry).reverse := by
      simp
    have walk_ : ∀ {tree : FileTree}, Closed tree →
        (∀ front, front <+: before ++ [name] → ∀ text, tree.get? front ≠ some (.file text)) →
        tree.walk [] (lead ++ (before ++ [name]).map FilePath.Component.entry) =
          if tree.get? before = some .directory then .ok (before ++ [name])
          else .error .missing := by
      intro tree closed open_
      rw [walk_lead tree form, closed.walk_names fun front below _ => open_ front below,
        List.dropLast_concat]
    have reached := walk_ closed open_
    rw [reversed, makeDirectoriesBack_cons, ← reversed, List.reverse_reverse]
    by_cases parent : tree.get? before = some .directory
    · rw [if_pos parent] at reached
      obtain ⟨made, result, rest⟩ := closed.exists_makeLast reached parent
        (open_ _ List.prefix_rfl)
      refine ⟨made, ?_, rest⟩
      rw [result]
      split
      · next missing =>
        rw [makeDirectory, reached] at missing
        simp only at missing
        split at missing <;> cases missing
      · rfl
    · rw [if_neg parent] at reached
      have missing : tree.makeDirectory (lead ++ (before ++ [name]).map FilePath.Component.entry) =
          .error .missing := by
        rw [makeDirectory, reached]
      rw [missing]
      obtain ⟨between, made_, closed', get_⟩ := ih fun front below =>
        open_ front (below.trans (List.prefix_append _ _))
      have parent' : between.get? before = some .directory := by
        rw [get_, if_pos List.prefix_rfl]
      have open' : ∀ front, front <+: before ++ [name] → ∀ text,
          between.get? front ≠ some (.file text) := by
        intro front below text
        rw [get_]
        split
        · simp
        · exact open_ front below text
      obtain ⟨made, result, closed'', get'⟩ := closed'.exists_makeLast
        ((walk_ closed' open').trans (if_pos parent')) parent' (open' _ List.prefix_rfl)
      refine ⟨made, ?_, closed'', fun names => ?_⟩
      · rw [made_]
        exact result
      · rw [get', get_]
        by_cases below : names <+: before ++ [name]
        · rw [if_pos below, if_pos below]
        · rw [if_neg below, if_neg below, if_neg]
          exact fun within => below (within.trans (List.prefix_append _ _))

theorem locate_eq_walk (tree : FileTree) {path : FilePath} {front : List Char} {name : String}
    (ends : path.Ends front name) : tree.locate path = tree.walk [] path.components := by
  rw [locate, ends.namesDirectory, ends.lastPiece]
  cases tree.walk [] path.components with
  | error error => rfl
  | ok names =>
    simp only [ends.plain.counts.2.1, if_false]
    cases tree.get? names <;> rfl

/-- A path downwards leads to its names if it leads anywhere. -/
theorem names_of_locate {path : FilePath} {front : List Char} {name : String}
    (ends : path.Ends front name) (down : .up ∉ path.components)
    (h : tree.locate path = .ok names) : names = path.names := by
  obtain ⟨lead, form, split_⟩ := FilePath.componentsOf_of_downward down
  rw [locate_eq_walk tree ends, path.components_eq, split_, walk_lead tree form] at h
  exact eq_of_walk h

/-- A path downwards leads to its names where the directory above them is there. -/
theorem Closed.locate_eq (closed : Closed tree) {path : FilePath} {front : List Char}
    {name : String} (ends : path.Ends front name) (down : .up ∉ path.components)
    (open_ : ∀ front, front <+: path.names → front ≠ path.names → ∀ text,
      tree.get? front ≠ some (.file text)) :
    tree.locate path =
      if tree.get? path.names.dropLast = some .directory then .ok path.names
      else .error .missing := by
  obtain ⟨lead, form, split_⟩ := FilePath.componentsOf_of_downward down
  rw [locate_eq_walk tree ends, path.components_eq, split_, walk_lead tree form]
  exact closed.walk_names open_

/-- A path downwards leads to its names below a directory that is there. -/
theorem Closed.locate_of_parent (closed : Closed tree) {path : FilePath} {front : List Char}
    {name : String} (ends : path.Ends front name) (down : .up ∉ path.components)
    (parent : tree.get? path.names.dropLast = some .directory) :
    tree.locate path = .ok path.names := by
  rw [closed.locate_eq ends down, if_pos parent]
  intro front below proper text
  have within : front <+: path.names.dropLast := by
    obtain ⟨above, last, names⟩ : ∃ above last, path.names = above ++ [last] :=
      ⟨_, _, ends.names⟩
    rw [names] at below proper ⊢
    rw [List.dropLast_concat]
    exact (List.prefix_concat_iff.1 below).resolve_left proper
  by_cases same : front = path.names.dropLast
  · rw [same, parent]
    simp
  · rw [closed.directory_of_prefix (by rw [parent]; simp) within same]
    simp

/-- Clearing a directory removes it with everything in it and nothing else. -/
theorem Closed.clear_eq (closed : Closed tree) {path : FilePath} {front : List Char}
    {name : String} (ends : path.Ends front name) (down : .up ∉ path.components)
    (notFile : ∀ text, tree.get? path.names ≠ some (.file text)) :
    (tree.clear path).2 = none ∧ ∀ names, (tree.clear path).1.get? names =
      if path.names <+: names then none else tree.get? names := by
  have notTop : path.names ≠ [] := by
    rw [ends.names]
    simp
  cases present : tree.get? path.names with
  | none =>
    -- nothing is there, whatever the path leads to
    have unchanged : tree.clear path = (tree, none) := by
      rw [FileTree.clear]
      split
      · rfl
      · next names reached =>
        rw [names_of_locate ends down reached, present]
    rw [unchanged]
    refine ⟨rfl, fun names => ?_⟩
    split
    · next below =>
      by_contra there
      by_cases same : path.names = names
      · exact there (same ▸ present)
      · have directory := closed.directory_of_prefix there below same
        rw [present] at directory
        cases directory
    · rfl
  | some entry => cases entry with
    | file text => exact absurd present (notFile text)
    | directory =>
      have above : ∀ front, front <+: path.names → front ≠ path.names →
          tree.get? front = some .directory := fun front below proper =>
        closed.directory_of_prefix (by rw [present]; exact Option.some_ne_none _) below proper
      have reached : tree.locate path = .ok path.names := by
        rw [closed.locate_eq ends down fun front below proper text => by
          rw [above front below proper]
          simp]
        exact if_pos (closed _ (by rw [present]; exact Option.some_ne_none _))
      rw [FileTree.clear, reached]
      simp only [present, ends.lastPiece, ends.plain.counts.2.1, ends.plain.counts.2.2, if_false]
      exact ⟨trivial, fun names => get?_removeBelow_of_ne_nil notTop⟩

end Slotwise.FileTree
