import Slotwise.Proofs.Order
import Slotwise.Proofs.Outcome
/-!
# Selections and forced locations

Forcing a location onto every node of a selection forces it onto every choice and changes nothing
else: the same choices are gathered in the same order, and the same faults are found
(`gather_modularize`). So it can as well be forced onto the choices when the selection is simplified
(`simplify_modularize`).
-/

namespace Slotwise

theorem Location.overriddenBy_inherit {forced location parent below : Location}
    (same : below.overriddenBy forced = parent.overriddenBy forced) :
    (location.overriddenBy forced).inherit below =
      (location.inherit parent).overriddenBy forced := by
  rcases forced with ⟨_ | _, _ | _, _ | _⟩ <;> rcases location with ⟨_ | _, _ | _, _ | _⟩ <;>
    simp_all [Location.overriddenBy, Location.inherit]

theorem Location.overriddenBy_self (location forced : Location) :
    (location.overriddenBy forced).overriddenBy forced = location.overriddenBy forced := by
  rcases forced with ⟨_ | _, _ | _, _ | _⟩ <;> rfl

theorem Location.eq_of_compare {l₁ l₂ : Location} (h : l₁.compare l₂ = .eq) : l₁ = l₂ := by
  have optional {x y : Option String} (h : Ordered.compareOptional x y = .eq) : x = y := by
    cases x with
    | none => cases y <;> [rfl; cases h]
    | some x =>
      cases y with
      | none => cases h
      | some y => exact congrArg some (Std.LawfulEqOrd.eq_of_compare h)
  rcases l₁ with ⟨root₁, domain₁, package₁⟩
  rcases l₂ with ⟨root₂, domain₂, package₂⟩
  simp only [Location.compare, Ordering.then_eq_eq] at h
  rw [optional h.1, optional h.2.1, optional h.2.2]

theorem Choice.eq_of_compare {c₁ c₂ : Choice} (h : c₁.compare c₂ = .eq) : c₁ = c₂ := by
  rcases c₁ with ⟨dimension₁, location₁⟩
  rcases c₂ with ⟨dimension₂, location₂⟩
  obtain ⟨dimension, location⟩ := Ordering.then_eq_eq.1 h
  cases Std.LawfulEqOrd.eq_of_compare dimension
  cases Location.eq_of_compare location
  rfl

/-- The choice with the fields replaced that `forced` gives. -/
def Choice.overriddenBy (choice : Choice) (forced : Location) : Choice :=
  { choice with location := choice.location.overriddenBy forced }

namespace Selection

theorem choose_overriddenBy (forced location : Location) (dimension : Nat) :
    choose (location.overriddenBy forced) dimension =
      (choose location dimension).map (·.overriddenBy forced) := by
  unfold choose
  split <;> rfl

theorem chooseRange_overriddenBy (forced location : Location) (first last : Nat) :
    chooseRange (location.overriddenBy forced) first last =
      (chooseRange location first last).map (List.map (·.overriddenBy forced)) := by
  unfold chooseRange
  split
  · rfl
  · split
    · rfl
    · simp [Except.map, Choice.overriddenBy]

theorem mapM_choose_overriddenBy (forced location : Location) (dimensions : List Nat) :
    dimensions.mapM (choose (location.overriddenBy forced)) =
      (dimensions.mapM (choose location)).map (List.map (·.overriddenBy forced)) := by
  induction dimensions with
  | nil => rfl
  | cons first rest ih =>
    rw [List.mapM_cons, List.mapM_cons, ih, choose_overriddenBy]
    cases choose location first with
    | error e => rfl
    | ok choice => cases rest.mapM (choose location) <;> rfl

mutual

theorem gather_modularize (forced : Location) {parent below : Location}
    (same : below.overriddenBy forced = parent.overriddenBy forced) (selection : Selection) :
    gather below (modularize forced selection) =
      (gather parent selection).map (List.map (·.overriddenBy forced)) := by
  cases selection with
  | single d location =>
    rw [modularize, gather, gather, Location.overriddenBy_inherit same, choose_overriddenBy]
    cases choose (location.inherit parent) d <;> rfl
  | range first last location =>
    rw [modularize, gather, gather, Location.overriddenBy_inherit same,
      chooseRange_overriddenBy]
  | list ds location =>
    rw [modularize, gather, gather, Location.overriddenBy_inherit same,
      mapM_choose_overriddenBy]
    split <;> rfl
  | composite members location =>
    rw [modularize, gather, gather]
    cases members with
    | nil => rfl
    | cons member rest =>
      simp only [modularizeAll, List.isEmpty_cons, Bool.false_eq_true, if_false]
      rw [← modularizeAll]
      refine gatherAll_modularize forced ?_ (member :: rest)
      rw [Location.overriddenBy_inherit same, Location.overriddenBy_self]

theorem gatherAll_modularize (forced : Location) {parent below : Location}
    (same : below.overriddenBy forced = parent.overriddenBy forced) (members : List Selection) :
    gatherAll below (modularizeAll forced members) =
      (gatherAll parent members).map (List.map (·.overriddenBy forced)) := by
  cases members with
  | nil => rfl
  | cons member rest =>
    rw [modularizeAll, gatherAll, gatherAll, gather_modularize forced same member,
      gatherAll_modularize forced same rest]
    cases gather parent member with
    | error e => rfl
    | ok first =>
      cases gatherAll parent rest with
      | error e => rfl
      | ok others => exact congrArg Except.ok List.map_append.symm

end

/-- Simplifying a selection with a location forced onto it is forcing the location onto what it
simplifies to. -/
theorem simplify_modularize (forced : Location) (selection : Selection) :
    (selection.modularize forced).simplify =
      selection.simplify.map fun choices =>
        Ordered.sortedSet Choice.compare (choices.map (·.overriddenBy forced)) := by
  have same : Location.anywhere.overriddenBy forced = Location.anywhere.overriddenBy forced := rfl
  rw [simplify, simplify, gather_modularize forced same]
  cases selection.gather Location.anywhere with
  | error e => rfl
  | ok gathered =>
    -- whether the choices are sorted before the location is forced onto them does not count
    have members : ∀ choice, choice ∈ Ordered.sortedSet Choice.compare gathered ↔
        choice ∈ gathered :=
      fun _ => Ordered.mem_sortedSet_iff fun _ _ _ _ => Choice.eq_of_compare
    refine congrArg Except.ok (Ordered.sortedSet_congr (fun _ _ => Choice.eq_of_compare) ?_)
    intro choice
    simp only [List.mem_map, members]

theorem mem_of_simplify {selection : Selection} {choices : List Choice}
    (h : selection.simplify = .ok choices) :
    ∃ gathered, selection.gather Location.anywhere = .ok gathered ∧
      ∀ choice, choice ∈ choices ↔ choice ∈ gathered := by
  obtain ⟨gathered, found, result⟩ := Outcome.bind_eq_ok_iff.1 h
  have same := Outcome.pure_eq_ok_iff.1 result
  refine ⟨gathered, found, fun choice => ?_⟩
  rw [← same]
  exact Ordered.mem_sortedSet_iff fun _ _ _ _ => Choice.eq_of_compare

/-- The choices of a selection with a location forced onto it are its choices with that location
forced onto each. -/
theorem mem_simplify_modularize {forced : Location} {selection : Selection}
    {choices forcedChoices : List Choice} (h : selection.simplify = .ok choices)
    (hforced : (selection.modularize forced).simplify = .ok forcedChoices) {choice : Choice} :
    choice ∈ forcedChoices ↔ ∃ own ∈ choices, choice = own.overriddenBy forced := by
  obtain ⟨gathered, found, own_iff⟩ := mem_of_simplify h
  obtain ⟨_, foundForced, forced_iff⟩ := mem_of_simplify hforced
  have same : Location.anywhere.overriddenBy forced = Location.anywhere.overriddenBy forced := rfl
  rw [gather_modularize forced same, found] at foundForced
  cases foundForced
  simp only [forced_iff, own_iff, List.mem_map, eq_comm]

end Selection

end Slotwise
