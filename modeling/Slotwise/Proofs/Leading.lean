import Mathlib.Data.List.DropRight
import Slotwise.Proofs.FileTree
/-!
# Where paths lead

A path climbs up to its last component that is no name, and from there goes down by names. The way
down can be made; the way up has to be there. So a path leads to the same names in every tree in
which its climb can be followed (`LeadsTo`), whatever stands on the way down, and it keeps leading
there while directories are added.

Main statements: what a path leads to is found there and nowhere else (`LeadsTo.eq_of_locate`), a
path below a root leads below what the root leads to (`LeadsTo.push`), and clearing a directory
takes everything below it along and nothing else (`Closed.get?_of_clear`).
-/

namespace Slotwise

namespace FilePath

/-- Whether the component is a name. -/
def Component.isEntry : Component → Bool
  | entry _ => true
  | _ => false

/-- The steps up to the last one that is no name. -/
def climb (steps : List Component) : List Component :=
  steps.rdropWhile Component.isEntry

/-- The names behind the last step that is none. -/
def descent (steps : List Component) : List String :=
  (steps.rtakeWhile Component.isEntry).filterMap Component.name?

theorem climb_concat (steps : List Component) (name : String) :
    climb (steps ++ [Component.entry name]) = climb steps :=
  List.rdropWhile_concat_pos _ _ _ rfl

theorem descent_concat (steps : List Component) (name : String) :
    descent (steps ++ [Component.entry name]) = descent steps ++ [name] := by
  rw [descent, List.rtakeWhile_concat_pos _ _ _ rfl, List.filterMap_append]
  rfl

theorem climb_append (steps : List Component) (names : List String) :
    climb (steps ++ names.map .entry) = climb steps := by
  induction names using List.reverseRecOn with
  | nil => rw [List.map_nil, List.append_nil]
  | append_singleton before name ih =>
    rw [List.map_append, ← List.append_assoc, List.map_singleton, climb_concat, ih]

theorem descent_append (steps : List Component) (names : List String) :
    descent (steps ++ names.map .entry) = descent steps ++ names := by
  induction names using List.reverseRecOn with
  | nil => rw [List.map_nil, List.append_nil, List.append_nil]
  | append_singleton before name ih =>
    rw [List.map_append, ← List.append_assoc, List.map_singleton, descent_concat, ih,
      List.append_assoc]

theorem climb_append_descent (steps : List Component) :
    climb steps ++ (descent steps).map .entry = steps := by
  have entries : ∀ component ∈ steps.rtakeWhile Component.isEntry,
      ∃ name, component = .entry name := by
    intro component member
    cases component with
    | entry name => exact ⟨name, rfl⟩
    | root => exact absurd (List.mem_rtakeWhile_imp member) Bool.false_ne_true
    | here => exact absurd (List.mem_rtakeWhile_imp member) Bool.false_ne_true
    | up => exact absurd (List.mem_rtakeWhile_imp member) Bool.false_ne_true
  rw [descent, map_entry_filterMap entries]
  exact List.rdropWhile_append_rtakeWhile

/-- A relative path downwards to a name at its end. -/
structure Local (path : FilePath) : Prop where
  /-- It does not start at the root of the file system. -/
  relative : path.isAbsolute = false
  /-- It does not lead upwards. -/
  downward : .up ∉ path.components
  /-- It ends in a name. -/
  named : ∃ front name, path.Ends front name

end FilePath

namespace FileTree

open FilePath (climb descent)

variable {tree other : FileTree} {steps : List FilePath.Component} {names reached : List String}

/-- The steps lead to these names: up through directories that are there, and down by names. -/
def LeadsTo (tree : FileTree) (steps : List FilePath.Component) (names : List String) : Prop :=
  ∃ base, tree.walk [] (climb steps) = .ok base ∧ tree.get? base = some .directory ∧
    names = base ++ descent steps

theorem LeadsTo.append (leads : tree.LeadsTo steps names) (more : List String) :
    tree.LeadsTo (steps ++ more.map .entry) (names ++ more) := by
  obtain ⟨base, followed, there, rfl⟩ := leads
  refine ⟨base, ?_, there, ?_⟩
  · rw [FilePath.climb_append, followed]
  · rw [FilePath.descent_append, List.append_assoc]

theorem leadsTo_concat_iff {name : String} :
    tree.LeadsTo (steps ++ [FilePath.Component.entry name]) names ↔
      ∃ above, tree.LeadsTo steps above ∧ names = above ++ [name] := by
  constructor
  · rintro ⟨base, followed, there, rfl⟩
    rw [FilePath.climb_concat] at followed
    refine ⟨_, ⟨base, followed, there, rfl⟩, ?_⟩
    rw [FilePath.descent_concat, List.append_assoc]
  · rintro ⟨above, leads, rfl⟩
    exact leads.append [name]

/-- A path leads to its name in the directory that it leads through. -/
theorem LeadsTo.ends {path : FilePath} {front : List Char} {name : String}
    (leads : tree.LeadsTo (FilePath.componentsOf front) names) (ends : path.Ends front name) :
    tree.LeadsTo path.components (names ++ [name]) := by
  rw [ends.components]
  exact leads.append [name]

/-- A path leads to one place. -/
theorem LeadsTo.unique (leads : tree.LeadsTo steps names) (again : tree.LeadsTo steps reached) :
    names = reached := by
  obtain ⟨base, followed, -, rfl⟩ := leads
  obtain ⟨base', followed', -, rfl⟩ := again
  rw [Except.ok.inj (followed.symm.trans followed')]

/-- Directories that are added do not change where a path leads. -/
theorem LeadsTo.mono (leads : tree.LeadsTo steps names)
    (kept : ∀ names, tree.get? names = some .directory → other.get? names = some .directory) :
    other.LeadsTo steps names := by
  obtain ⟨base, followed, there, rfl⟩ := leads
  exact ⟨base, walk_of_directories kept followed, kept base there, rfl⟩

/-- Names behind an opening, or behind nothing, lead to themselves. -/
theorem leadsTo_lead {lead : List FilePath.Component}
    (form : lead = [] ∨ lead = [.root] ∨ lead = [.here]) (tree : FileTree) (names : List String) :
    tree.LeadsTo (lead ++ names.map .entry) names := by
  have top : tree.LeadsTo lead [] := by
    obtain rfl | rfl | rfl := form <;> exact ⟨[], rfl, rfl, rfl⟩
  exact top.append names

/-- A path without steps upwards leads to its names in every tree. -/
theorem leadsTo_of_downward (tree : FileTree) {path : FilePath} (down : .up ∉ path.components) :
    tree.LeadsTo path.components path.names := by
  obtain ⟨lead, form, split_⟩ := FilePath.componentsOf_of_downward down
  have leads := leadsTo_lead form tree path.names
  rwa [FilePath.names, path.components_eq, ← split_] at leads

/-- A relative path downwards leads below what a root leads to. -/
theorem LeadsTo.push {root path : FilePath} (leads : tree.LeadsTo root.components names)
    (relative : path.isAbsolute = false) (down : .up ∉ path.components) :
    tree.LeadsTo (root.push path.text).components (names ++ path.names) := by
  rw [FilePath.components_push_of_relative root relative]
  split
  · next empty =>
    -- the empty root leads to the top
    have top : root.components = [] := by rw [FilePath.components_eq, empty]; rfl
    rw [top] at leads
    rw [leads.unique ⟨[], rfl, rfl, rfl⟩]
    exact leadsTo_of_downward tree down
  · rw [FilePath.pieces_of_downward down]
    exact leads.append path.names

theorem LeadsTo.walk_eq (leads : tree.LeadsTo steps names) :
    ∃ base, tree.walk [] steps = tree.walk base ((descent steps).map .entry) ∧
      tree.get? base = some .directory ∧ names = base ++ descent steps := by
  obtain ⟨base, followed, there, same⟩ := leads
  refine ⟨base, ?_, there, same⟩
  conv_lhs => rw [← FilePath.climb_append_descent steps]
  rw [walk_append, followed]

/-- What a path reaches is what it leads to. -/
theorem LeadsTo.eq_of_walk (leads : tree.LeadsTo steps names)
    (h : tree.walk [] steps = .ok reached) : reached = names := by
  obtain ⟨base, walk_, -, rfl⟩ := leads.walk_eq
  rw [walk_] at h
  exact FileTree.eq_of_walk h

theorem LeadsTo.eq_of_locate {path : FilePath} (leads : tree.LeadsTo path.components names)
    (h : tree.locate path = .ok reached) : reached = names :=
  leads.eq_of_walk (walk_of_locate h)

theorem walk_down {base rest : List String} (open_ : ∀ front, front <+: rest → front ≠ rest →
      tree.get? (base ++ front) = some .directory) :
    tree.walk base (rest.map .entry) = .ok (base ++ rest) := by
  induction rest generalizing base with
  | nil => rw [List.append_nil]; rfl
  | cons name rest ih =>
    have here : tree.get? base = some .directory := by
      have first := open_ [] List.nil_prefix (by simp)
      rwa [List.append_nil] at first
    rw [List.map_cons, walk_entry, here]
    refine (ih fun front before proper => ?_).trans (by rw [List.append_assoc]; rfl)
    rw [List.append_assoc]
    exact open_ (name :: front) (List.cons_prefix_cons.2 ⟨rfl, before⟩)
      fun same => proper (List.cons.inj same).2

/-- A path reaches what it leads to through directories. -/
theorem LeadsTo.walk (leads : tree.LeadsTo steps names)
    (open_ : ∀ front, front <+: names → front ≠ names → tree.get? front = some .directory) :
    tree.walk [] steps = .ok names := by
  obtain ⟨base, walk_, -, rfl⟩ := leads.walk_eq
  rw [walk_]
  refine walk_down fun front before proper => open_ _ ?_ fun same => proper ?_
  · exact (List.prefix_append_right_inj base).2 before
  · exact List.append_cancel_left same

/-! ## Clearing -/

/-- Clearing a directory removes it with everything below it and nothing else. -/
theorem Closed.get?_of_clear (closed : Closed tree) {path : FilePath} {front : List Char}
    {name : String} (ends : path.Ends front name) (leads : tree.LeadsTo path.components names)
    (h : (tree.clear path).2 = none) (other : List String) :
    (tree.clear path).1.get? other = if names <+: other then none else tree.get? other := by
  have named : names ≠ [] := by
    rw [ends.components, leadsTo_concat_iff] at leads
    obtain ⟨above, -, rfl⟩ := leads
    simp
  have absent (nothing : tree.get? names = none) :
      tree.get? other = if names <+: other then none else tree.get? other := by
    split
    · next below =>
      by_contra there
      by_cases same : names = other
      · exact there (same ▸ nothing)
      · have directory := closed.directory_of_prefix there below same
        rw [nothing] at directory
        cases directory
    · rfl
  rw [FileTree.clear] at h ⊢
  split at h
  · next missed =>
    -- a path that cannot be followed has nothing at its end
    refine absent ?_
    by_contra there
    have open_ : ∀ front, front <+: names → front ≠ names →
        tree.get? front = some .directory :=
      fun front before proper => closed.directory_of_prefix there before proper
    rw [locate_eq_walk tree ends, leads.walk open_] at missed
    cases missed
  · next at_ =>
    cases leads.eq_of_locate at_
    split at h
    · next nothing => exact absent nothing
    · cases h
    · simp only [ends.lastPiece, ends.plain.counts.2.1, ends.plain.counts.2.2, if_false]
      exact get?_removeBelow_of_ne_nil named

end FileTree

end Slotwise
