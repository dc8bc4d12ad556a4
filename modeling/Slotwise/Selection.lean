import Slotwise.Location
import Slotwise.ModelError
/-!
# Selections of dimensions

A selection names the dimensions of a family of types, each with a location. Selections nest: a
composite unites others, and every node may give location fields that its members inherit.

Main statements: whatever a selection gathers has at least two slots (`two_le_of_mem_gather`).
-/

namespace Slotwise

/-- The smallest dimension of a product or sum. -/
def minDimension : Nat := 2

/-- The dimensions that a family is asked for. -/
inductive Selection where
  /-- Exactly one dimension. -/
  | single (dimension : Nat) (location : Location)
  /-- The dimensions from `first` to `last`, both included. -/
  | range (first last : Nat) (location : Location)
  /-- The listed dimensions. -/
  | list (dimensions : List Nat) (location : Location)
  /-- The union of the members. -/
  | composite (members : List Selection) (location : Location)
deriving Repr

/-- A dimension with its location. -/
structure Choice where
  /-- The number of slots. -/
  dimension : Nat
  /-- The location, as inherited through the selection. -/
  location : Location
deriving DecidableEq, Repr

/-- The order of choices by dimension, then by location. -/
def Choice.compare (c₁ c₂ : Choice) : Ordering :=
  (Ord.compare c₁.dimension c₂.dimension).then (c₁.location.compare c₂.location)

namespace Selection

/-- The location given at the top node. -/
def location : Selection → Location
  | single _ location | range _ _ location | list _ location | composite _ location => location

/-- The selection with `location` at its top node. -/
def placedAt (selection : Selection) (location : Location) : Selection :=
  match selection with
  | single d _ => single d location
  | range first last _ => range first last location
  | list ds _ => list ds location
  | composite ms _ => composite ms location

/-- The choice of a dimension, refused below two slots. -/
def choose (location : Location) (dimension : Nat) : Except ModelError Choice :=
  if dimension < minDimension then .error (.invalidDimension dimension)
  else .ok ⟨dimension, location⟩

/-- The choices of a range of dimensions; only its first can be too small. -/
def chooseRange (location : Location) (first last : Nat) : Except ModelError (List Choice) :=
  if last < first then .error (.emptyRange first last)
  else if first < minDimension then .error (.invalidDimension first)
  else .ok ((List.range' first (last + 1 - first)).map fun d => ⟨d, location⟩)

mutual

/-- The choices of a selection below `parent`, from left to right. -/
def gather (parent : Location) : Selection → Except ModelError (List Choice)
  | single d location => do
    return [← choose (location.inherit parent) d]
  | range first last location => chooseRange (location.inherit parent) first last
  | list ds location =>
    if ds.isEmpty then .error .emptyList
    else ds.mapM (choose (location.inherit parent))
  | composite members location =>
    if members.isEmpty then .error .emptyComposite
    else gatherAll (location.inherit parent) members

/-- The choices of the members of a composite, from left to right. -/
def gatherAll (parent : Location) : List Selection → Except ModelError (List Choice)
  | [] => .ok []
  | member :: rest => do
    return (← gather parent member) ++ (← gatherAll parent rest)

end

/-- The choices of a selection in order, each once. -/
def simplify (selection : Selection) : Except ModelError (List Choice) := do
  return Ordered.sortedSet Choice.compare (← selection.gather Location.anywhere)

mutual

/-- The selection with the fields that `forced` gives replaced at every node. -/
def modularize (forced : Location) : Selection → Selection
  | single d location => single d (location.overriddenBy forced)
  | range first last location => range first last (location.overriddenBy forced)
  | list ds location => list ds (location.overriddenBy forced)
  | composite members location =>
    composite (modularizeAll forced members) (location.overriddenBy forced)

/-- The members with the fields that `forced` gives replaced at every node. -/
def modularizeAll (forced : Location) : List Selection → List Selection
  | [] => []
  | member :: rest => modularize forced member :: modularizeAll forced rest

end

/-- The union of two selections, without a location of its own. -/
def union (s₁ s₂ : Selection) : Selection :=
  composite [s₁, s₂] Location.anywhere

theorem two_le_of_choose {location : Location} {d : Nat} {c : Choice}
    (h : choose location d = .ok c) : 2 ≤ c.dimension := by
  unfold choose minDimension at h
  split at h
  · cases h
  · next notBelow =>
    cases h
    exact Nat.le_of_not_lt notBelow

theorem two_le_of_mem_chooseRange {location : Location} {first last : Nat}
    {choices : List Choice} {c : Choice} (h : chooseRange location first last = .ok choices)
    (hc : c ∈ choices) : 2 ≤ c.dimension := by
  unfold chooseRange minDimension at h
  split at h
  · cases h
  · split at h
    · cases h
    · cases h
      simp only [List.mem_map, List.mem_range'_1] at hc
      obtain ⟨d, bounds, rfl⟩ := hc
      exact Nat.le_trans (Nat.le_of_not_lt ‹_›) bounds.1

theorem two_le_of_mem_mapM_choose {location : Location} {ds : List Nat} {choices : List Choice}
    {c : Choice} (h : ds.mapM (choose location) = .ok choices) (hc : c ∈ choices) :
    2 ≤ c.dimension := by
  induction ds generalizing choices with
  | nil => cases h; cases hc
  | cons d rest ih =>
    rw [List.mapM_cons] at h
    cases hd : choose location d with
    | error e => simp [hd, bind, Except.bind] at h
    | ok first =>
      cases hr : rest.mapM (choose location) with
      | error e => simp [hd, hr, bind, Except.bind] at h
      | ok others =>
        simp only [hd, hr, bind, Except.bind, pure, Except.pure, Except.ok.injEq] at h
        subst h
        rcases List.mem_cons.1 hc with hc | hc
        · exact hc ▸ two_le_of_choose hd
        · exact ih hr hc

mutual

theorem two_le_of_mem_gather {c : Choice} (selection : Selection) {parent : Location}
    {choices : List Choice} (h : gather parent selection = .ok choices) (hc : c ∈ choices) :
    2 ≤ c.dimension := by
  cases selection with
  | single d location =>
    rw [gather] at h
    cases hd : choose (location.inherit parent) d with
    | error e => simp [hd, bind, Except.bind] at h
    | ok choice =>
      simp only [hd, bind, Except.bind, pure, Except.pure, Except.ok.injEq] at h
      subst h
      exact List.mem_singleton.1 hc ▸ two_le_of_choose hd
  | range first last location => exact two_le_of_mem_chooseRange (by rwa [gather] at h) hc
  | list ds location =>
    rw [gather] at h
    split at h
    · cases h
    · exact two_le_of_mem_mapM_choose h hc
  | composite members location =>
    rw [gather] at h
    split at h
    · cases h
    · exact two_le_of_mem_gatherAll members h hc

theorem two_le_of_mem_gatherAll {c : Choice} (members : List Selection) {parent : Location}
    {choices : List Choice} (h : gatherAll parent members = .ok choices) (hc : c ∈ choices) :
    2 ≤ c.dimension := by
  cases members with
  | nil => rw [gatherAll] at h; cases h; cases hc
  | cons member rest =>
    rw [gatherAll] at h
    cases hm : gather parent member with
    | error e => simp [hm, bind, Except.bind] at h
    | ok first =>
      cases hr : gatherAll parent rest with
      | error e => simp [hm, hr, bind, Except.bind] at h
      | ok others =>
        simp only [hm, hr, bind, Except.bind, pure, Except.pure, Except.ok.injEq] at h
        subst h
        rcases List.mem_append.1 hc with hc | hc
        · exact two_le_of_mem_gather member hm hc
        · exact two_le_of_mem_gatherAll rest hr hc

end

end Selection

end Slotwise
