import Slotwise.Proofs.Order
import Slotwise.Proofs.Selection
/-!
# What selections denote

A selection is a tree. Its leaves select dimensions, and every node may give fields of a location. A
dimension is chosen where the nodes on the way from its leaf up to the root say, for each field the
nearest one that gives it.

Gathering is described by the nodes in order alone: the first one with a fault decides, and where none
has one, each contributes its own dimensions (`gather_eq_verdict`).

Main statement: a selection is simplified to exactly the choices that its tree denotes, or refused for
its first fault (`simplify_denotes`).
-/

namespace Slotwise.Selection

/-! ## Nodes of a selection -/

/-- A node of a selection. -/
structure Position where
  /-- The node. -/
  node : Selection
  /-- The locations on the way from the node up to the root, its own first. -/
  way : List Location

mutual

/-- The nodes of a selection below nodes with these locations, from left to right and each before its
members. -/
def positions (above : List Location) : Selection → List Position
  | single d location => [⟨single d location, location :: above⟩]
  | range first last location => [⟨range first last location, location :: above⟩]
  | list ds location => [⟨list ds location, location :: above⟩]
  | composite members location =>
    ⟨composite members location, location :: above⟩ :: positionsAll (location :: above) members

/-- The nodes of the members of a composite, from left to right. -/
def positionsAll (above : List Location) : List Selection → List Position
  | [] => []
  | member :: rest => positions above member ++ positionsAll above rest

end

/-- The dimensions that a node selects by itself, in order. -/
def dimensions : Selection → List Nat
  | single d _ => [d]
  | range first last _ => List.range' first (last + 1 - first)
  | list ds _ => ds
  | composite _ _ => []

/-- The node names something, and nothing that it selects is too small. -/
structure Proper (node : Selection) : Prop where
  /-- The node is no list without members. -/
  list : ∀ location, node ≠ .list [] location
  /-- The node is no composite without members. -/
  composite : ∀ location, node ≠ .composite [] location
  /-- The node is no range that ends before it starts. -/
  range : ∀ first last location, node = .range first last location → first ≤ last
  /-- The dimensions have at least two slots. -/
  dimensions : ∀ d ∈ node.dimensions, 2 ≤ d

/-- Why a node names nothing. -/
def hollow? : Selection → Option ModelError
  | single _ _ => none
  | range first last _ => if last < first then some (.emptyRange first last) else none
  | list ds _ => if ds.isEmpty then some .emptyList else none
  | composite members _ => if members.isEmpty then some .emptyComposite else none

/-- What is wrong with a node by itself: that it names nothing, or else the first of its dimensions
that is too small. -/
def fault? (node : Selection) : Option ModelError :=
  node.hollow?.or ((node.dimensions.find? (· < minDimension)).map .invalidDimension)

/-- The location that has for each field what the first of these locations gives that gives it. -/
def nearest (way : List Location) : Location :=
  ⟨way.findSome? (·.sourceRoot), way.findSome? (·.domain), way.findSome? (·.package)⟩

/-- The choices of a node by itself. -/
def Position.choices (position : Position) : List Choice :=
  position.node.dimensions.map fun d => ⟨d, nearest position.way⟩

/-- The first fault of a node, in this order. -/
def firstFault? (positions : List Position) : Option ModelError :=
  positions.findSome? (·.node.fault?)

theorem nearest_cons (location : Location) (above : List Location) :
    nearest (location :: above) = location.inherit (nearest above) := by
  rcases location with ⟨_ | _, _ | _, _ | _⟩ <;> rfl

theorem hollow?_eq_none_iff {node : Selection} :
    node.hollow? = none ↔ (∀ location, node ≠ .list [] location) ∧
      (∀ location, node ≠ .composite [] location) ∧
      ∀ first last location, node = .range first last location → first ≤ last := by
  cases node <;> simp [hollow?]

theorem fault?_eq_none_iff {node : Selection} : node.fault? = none ↔ node.Proper := by
  have named : node.fault? = none ↔
      node.hollow? = none ∧ ∀ d ∈ node.dimensions, minDimension ≤ d := by
    simp only [fault?, Option.or_eq_none_iff, Option.map_eq_none_iff, List.find?_eq_none,
      decide_eq_true_eq, Nat.not_lt]
  rw [named, hollow?_eq_none_iff]
  constructor
  · rintro ⟨⟨lists, composites, ranges⟩, large⟩
    exact ⟨lists, composites, ranges, large⟩
  · rintro ⟨lists, composites, ranges, large⟩
    exact ⟨⟨lists, composites, ranges⟩, large⟩

theorem firstFault?_eq_none_iff {positions : List Position} :
    firstFault? positions = none ↔ ∀ position ∈ positions, position.node.Proper := by
  simp only [firstFault?, List.findSome?_eq_none_iff, fault?_eq_none_iff]

theorem mem_choices_iff {position : Position} {choice : Choice} :
    choice ∈ position.choices ↔
      choice.dimension ∈ position.node.dimensions ∧ choice.location = nearest position.way := by
  rw [Position.choices, List.mem_map]
  constructor
  · rintro ⟨d, member, rfl⟩
    exact ⟨member, rfl⟩
  · rintro ⟨member, location⟩
    exact ⟨choice.dimension, member, by rw [← location]⟩

/-! ## Gathering -/

/-- What nodes in this order contribute, or the first fault of one of them. -/
def verdict (positions : List Position) : Except ModelError (List Choice) :=
  match firstFault? positions with
  | some error => .error error
  | none => .ok (positions.flatMap (·.choices))

theorem verdict_singleton (position : Position) :
    verdict [position] =
      match position.node.fault? with
      | some error => .error error
      | none => .ok position.choices := by
  rw [verdict, firstFault?, List.findSome?_singleton]
  cases position.node.fault? <;> simp

theorem verdict_append (xs ys : List Position) :
    verdict (xs ++ ys) = do return (← verdict xs) ++ (← verdict ys) := by
  simp only [verdict, firstFault?, List.findSome?_append, List.flatMap_append]
  cases xs.findSome? (·.node.fault?) with
  | some error => rfl
  | none => cases ys.findSome? (·.node.fault?) <;> rfl

theorem mapM_choose_eq (location : Location) (dimensions : List Nat) :
    dimensions.mapM (choose location) =
      match dimensions.find? (· < minDimension) with
      | some d => .error (.invalidDimension d)
      | none => .ok (dimensions.map fun d => ⟨d, location⟩) := by
  induction dimensions with
  | nil => rfl
  | cons first rest ih =>
    rw [List.mapM_cons, ih, List.find?_cons, choose]
    by_cases small : first < minDimension
    · simp only [small, decide_true, if_true]
      rfl
    · simp only [small, decide_false, if_false]
      cases rest.find? (· < minDimension) <;> rfl

theorem chooseRange_eq (location : Location) (first last : Nat) :
    chooseRange location first last =
      match (range first last location).fault? with
      | some error => .error error
      | none => .ok ((range first last location).dimensions.map fun d => ⟨d, location⟩) := by
  rw [chooseRange, fault?, hollow?, dimensions]
  by_cases reversed : last < first
  · simp [reversed]
  · by_cases small : first < minDimension
    · -- the first dimension of a range is its smallest
      obtain ⟨n, count⟩ : ∃ n, last + 1 - first = n + 1 := ⟨last - first, by omega⟩
      simp [reversed, small, count, List.range'_succ]
    · have large : (List.range' first (last + 1 - first)).find? (· < minDimension) = none := by
        simp only [List.find?_eq_none, List.mem_range'_1, decide_eq_true_eq]
        omega
      simp [reversed, small, large]

mutual

/-- What is gathered from a selection depends on its nodes in order alone. -/
theorem gather_eq_verdict (above : List Location) (selection : Selection) :
    gather (nearest above) selection = verdict (positions above selection) := by
  cases selection with
  | single d location =>
    rw [gather, positions, ← nearest_cons, choose, verdict_singleton]
    by_cases small : d < minDimension <;>
      simp [fault?, hollow?, dimensions, Position.choices, small, bind, Except.bind, pure,
        Except.pure]
  | range first last location =>
    rw [gather, positions, ← nearest_cons, chooseRange_eq, verdict_singleton]
    rfl
  | list ds location =>
    rw [gather, positions, ← nearest_cons, mapM_choose_eq, verdict_singleton]
    cases ds with
    | nil => rfl
    | cons d rest =>
      simp only [fault?, hollow?, dimensions, Position.choices]
      cases (d :: rest).find? (· < minDimension) <;> rfl
  | composite members location =>
    rw [gather, positions, ← nearest_cons]
    cases members with
    | nil => rfl
    | cons member rest =>
      rw [gatherAll_eq_verdict (location :: above)]
      rfl

theorem gatherAll_eq_verdict (above : List Location) (members : List Selection) :
    gatherAll (nearest above) members = verdict (positionsAll above members) := by
  cases members with
  | nil => rfl
  | cons member rest =>
    rw [gatherAll, positionsAll, verdict_append, gather_eq_verdict above member,
      gatherAll_eq_verdict above rest]

end

/-! ## What is chosen -/

/-- The selection denotes the choice: one of its nodes selects the dimension, and the nodes on the way
from there up to the root give the location. -/
def Denotes (selection : Selection) (choice : Choice) : Prop :=
  ∃ position ∈ selection.positions [], choice.dimension ∈ position.node.dimensions ∧
    choice.location = nearest position.way

theorem simplify_eq (selection : Selection) :
    selection.simplify =
      (verdict (selection.positions [])).map (Ordered.sortedSet Choice.compare) := by
  rw [simplify, ← gather_eq_verdict]
  rfl

theorem simplify_eq_ok_iff {selection : Selection} {choices : List Choice} :
    selection.simplify = .ok choices ↔ firstFault? (selection.positions []) = none ∧
      Ordered.sortedSet Choice.compare ((selection.positions []).flatMap (·.choices)) = choices := by
  rw [simplify_eq, verdict]
  cases firstFault? (selection.positions []) <;> simp [Except.map]

theorem simplify_eq_error_iff {selection : Selection} {error : ModelError} :
    selection.simplify = .error error ↔ firstFault? (selection.positions []) = some error := by
  rw [simplify_eq, verdict]
  cases firstFault? (selection.positions []) <;> simp [Except.map]

/-- A selection of proper nodes selects a dimension. -/
theorem exists_dimensions_ne_nil (above : List Location) (selection : Selection)
    (proper : ∀ position ∈ selection.positions above, position.node.Proper) :
    ∃ position ∈ selection.positions above, position.node.dimensions ≠ [] := by
  cases selection with
  | single d location => exact ⟨_, List.mem_singleton_self _, List.cons_ne_nil _ _⟩
  | range first last location =>
    have ordered : first ≤ last := (proper _ (List.mem_singleton_self _)).range _ _ _ rfl
    refine ⟨_, List.mem_singleton_self _, ?_⟩
    rw [dimensions, ne_eq, List.range'_eq_nil_iff]
    omega
  | list ds location =>
    refine ⟨_, List.mem_singleton_self _, ?_⟩
    rintro (rfl : ds = [])
    exact (proper _ (List.mem_singleton_self _)).list _ rfl
  | composite members location =>
    cases members with
    | nil => exact absurd rfl ((proper _ List.mem_cons_self).composite location)
    | cons member rest =>
      rw [positions, positionsAll] at proper ⊢
      obtain ⟨position, inside, named⟩ := exists_dimensions_ne_nil (location :: above) member
        fun position inside => proper position
          (List.mem_cons_of_mem _ (List.mem_append_left _ inside))
      exact ⟨position, List.mem_cons_of_mem _ (List.mem_append_left _ inside), named⟩

/-- A selection is simplified just if all of its nodes are proper. The result is then not empty, it is
in order without repetitions, and it holds exactly the choices that the selection denotes. Any other
selection is refused for the fault of the first node that has one, from left to right and each node
before its members. -/
theorem simplify_denotes (selection : Selection) :
    ((∃ choices, selection.simplify = .ok choices) ↔
      ∀ position ∈ selection.positions [], position.node.Proper) ∧
    (∀ choices, selection.simplify = .ok choices → choices ≠ [] ∧
      choices.Pairwise (Choice.compare · · = .lt) ∧
      ∀ choice, choice ∈ choices ↔ selection.Denotes choice) ∧
    ∀ error, selection.simplify = .error error ↔
      firstFault? (selection.positions []) = some error := by
  refine ⟨?_, fun choices found => ?_, fun error => simplify_eq_error_iff⟩
  · simp only [simplify_eq_ok_iff, firstFault?_eq_none_iff, exists_and_left, exists_eq', and_true]
  · obtain ⟨faultless, rfl⟩ := simplify_eq_ok_iff.1 found
    have denotes : ∀ choice, choice ∈ Ordered.sortedSet Choice.compare
        ((selection.positions []).flatMap (·.choices)) ↔ selection.Denotes choice := by
      intro choice
      rw [Ordered.mem_sortedSet_iff fun _ _ _ _ => Choice.eq_of_compare, List.mem_flatMap, Denotes]
      simp only [mem_choices_iff]
    refine ⟨fun empty => ?_, Ordered.pairwise_sortedSet _, denotes⟩
    obtain ⟨position, inside, named⟩ :=
      exists_dimensions_ne_nil [] selection (firstFault?_eq_none_iff.1 faultless)
    obtain ⟨d, member⟩ := List.exists_mem_of_ne_nil _ named
    have chosen := (denotes ⟨d, nearest position.way⟩).2 ⟨position, inside, member, rfl⟩
    rw [empty] at chosen
    cases chosen

/-- A selection in which nodes on two levels give fields of a location. -/
def nested (last : Nat) : Selection :=
  .composite [.range 2 last (.inPackage "left"),
    .composite [.list [5, 3] .anywhere, .single 4 ⟨some "gen", none, none⟩] (.inPackage "right")]
    ⟨none, some "app", none⟩

/-- A dimension is chosen where three nodes say, and a selection is refused for a range that comes
first. -/
theorem simplify_denotes_nested :
    (∃ choices, (nested 3).simplify = .ok choices ∧ choices ≠ [] ∧
      ⟨4, ⟨some "gen", some "app", some "right"⟩⟩ ∈ choices) ∧
    (nested 1).simplify = .error (.emptyRange 2 1) := by
  obtain ⟨simplified, holds, -⟩ := simplify_denotes (nested 3)
  obtain ⟨choices, found⟩ := simplified.2 (firstFault?_eq_none_iff.1 (by decide +kernel))
  obtain ⟨filled, -, denotes⟩ := holds choices found
  obtain ⟨-, -, refused⟩ := simplify_denotes (nested 1)
  refine ⟨⟨choices, found, filled, (denotes _).2 ?_⟩, (refused _).2 (by decide +kernel)⟩
  refine ⟨⟨.single 4 ⟨some "gen", none, none⟩, [⟨some "gen", none, none⟩, .inPackage "right",
    ⟨none, some "app", none⟩]⟩, ?_, List.mem_singleton_self 4, rfl⟩
  simp [nested, positions, positionsAll]

end Slotwise.Selection
