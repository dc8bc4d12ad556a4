import Slotwise.Proofs.Transactions
/-!
# The meaning of single edits

The methods that edit a field of a variant compose an edit into the setters of some places, each the
number of a variant and of a field in it. Setters of a variant with a place are changed in the slot
of that field alone (`eval_composing`), and setters of all other variants pass through
(`eval_composing_other`).
-/

namespace Slotwise.Optics.Prism

open Code Naming

section Composing

variable {Data : Type} {world : World Data} {owner : String} {code : SetCode} {flavor : Flavor}

/-- The choice that composes an edit into the setters of some places. -/
def composing (code : SetCode) (flavor : Flavor) (type : Node) (places : List (Nat × Nat))
    (rest : List Node) : Node :=
  .choice .self (places.map (fun (v, f) => composeArm code flavor v f type) ++ rest)

theorem eval_composing_eq (type : Node) (places : List (Nat × Nat)) (rest : List Node)
    (setters edit : Value Data) :
    eval world owner [("self", setters), ("f", edit)] (composing code flavor type places rest) =
      select world owner [("self", setters), ("f", edit)]
        (places.map (fun (v, f) => composeArm code flavor v f type) ++ rest) setters := by
  rw [composing, eval_choice, eval_self]
  rfl

/-- An edit of a place changes the setter of its slot, and no other. -/
theorem eval_composing {widths : List Nat} (supports : Supports world widths) (type : Node)
    {places : List (Nat × Nat)} {i j : Nat} (place : (i + 1, j + 1) ∈ places)
    (once : ∀ other ∈ places, other.1 = i + 1 → other = (i + 1, j + 1)) {target : VariantCode}
    (targetIs : code.variants[i]? = some target) (width : target.width ∈ widths)
    {setters : List (Value Data)} (length : setters.length = target.width) {setter : Value Data}
    (here : setters[j]? = some setter) (edit : Value Data) (rest : List Node) :
    ∃ after, Follows world flavor setter edit after ∧
      eval world owner
        [("self", inSummand code.count (i + 1) (Shape.value setters)), ("f", edit)]
        (composing code flavor type places rest) =
        some (inSummand code.count (i + 1) (Shape.value (setters.set j after))) := by
  have fits : matchPattern owner (code.inVariant (i + 1) (.binding "setters"))
      (inSummand code.count (i + 1) (Shape.value setters)) =
      some (some [("setters", Shape.value setters)]) := by
    rw [matchPattern_inVariant, if_pos rfl]
    simp
  have free : List.lookup flavor.compose [("setters", Shape.value setters),
      ("self", inSummand code.count (i + 1) (Shape.value setters)), ("f", edit)] = none := by
    cases flavor <;> rfl
  have setterWidth : ((code.variants[i + 1 - 1]?).map VariantCode.width).getD 0 =
      setters.length := by
    rw [Nat.add_sub_cancel, targetIs, length]
    rfl
  have shapeIs : List.lookup (withoutRawMark "setters") [("setters", Shape.value setters),
      ("self", inSummand code.count (i + 1) (Shape.value setters)), ("f", edit)] =
      some (Shape.value setters) := rfl
  have editIs : List.lookup "f" [("setters", Shape.value setters),
      ("self", inSummand code.count (i + 1) (Shape.value setters)), ("f", edit)] =
      some edit := rfl
  obtain ⟨after, follows, composed⟩ := @Shape.exists_composeSlot Data world widths owner _
    supports flavor setters (length ▸ width) j setter edit here "setters" shapeIs editIs free type
  refine ⟨after, follows, ?_⟩
  rw [eval_composing_eq]
  have chosen := @select_of_mem Data world owner
    [("self", inSummand code.count (i + 1) (Shape.value setters)), ("f", edit)] _ places
    (fun place => code.inVariant place.1 (.binding "setters"))
    (fun place => code.inVariant place.1 (Shape.composeSlot flavor
      (((code.variants[place.1 - 1]?).map VariantCode.width).getD 0) place.2 type "setters"))
    (inSummand code.count (i + 1) (Shape.value setters)) _ place (by rw [fits]; simp) ?_ rest
  · refine chosen.trans ?_
    rw [select_fits fits, setterWidth, eval_inVariant, List.singleton_append, composed,
      Option.map_some]
  · intro other member different
    rw [matchPattern_inVariant, if_neg fun same => different (once other member same)]

/-- An edit of places in other variants changes nothing. -/
theorem eval_composing_other (type : Node) {places : List (Nat × Nat)} {k : Nat}
    (absent : ∀ place ∈ places, place.1 ≠ k + 1) (setters edit : Value Data) :
    eval world owner [("self", inSummand code.count (k + 1) setters), ("f", edit)]
        (composing code flavor type places [otherArm]) =
      some (inSummand code.count (k + 1) setters) := by
  have passed := @select_append Data world owner
    [("self", inSummand code.count (k + 1) setters), ("f", edit)] _ places
    (fun place => code.inVariant place.1 (.binding "setters"))
    (fun place => code.inVariant place.1 (Shape.composeSlot flavor
      (((code.variants[place.1 - 1]?).map VariantCode.width).getD 0) place.2 type "setters"))
    (inSummand code.count (k + 1) setters) ?_ [otherArm]
  · rw [eval_composing_eq]
    refine passed.trans ?_
    rw [otherArm, select_fits (matchPattern_binding "other" _)]
    simp
  · intro place member
    rw [matchPattern_inVariant, if_neg (absent place member)]

end Composing

end Slotwise.Optics.Prism
