import Mathlib.Data.List.Nodup
import Slotwise.Family.Product
import Slotwise.Family.Sum
import Slotwise.Optics.Shape
import Slotwise.Optics.Support
import Slotwise.Proofs.Forms
import Slotwise.Proofs.Outcome
/-!
# The meaning of setter shapes

The setters of some fields are one value, and slot `i` of it is the setter of field `i`: patterns
take that value apart, the identity shape puts unchanging setters into every slot, and composing an
edit into a slot changes that slot alone (`exists_composeSlot`). What a setter does is known by its
effect on values, for both flavours at once (`edited`).
-/

namespace Slotwise.Optics

open Code Naming

/-! ## Setters -/

section Setters

variable {Data : Type} (world : World Data)

/-- What becomes of a value under a setter. -/
noncomputable def edited : Flavor → Value Data → Value Data → Option (Value Data)
  | .direct, setter, value => apply world setter [value]
  | .asynchronous, setter, value => (apply world setter [value]).bind (await world)

/-- The setter changes nothing. -/
def Unchanging (flavor : Flavor) (setter : Value Data) : Prop :=
  ∀ value, edited world flavor setter value = some value

/-- The setter does what the first one does and then what the second one does. -/
def Follows (flavor : Flavor) (first second both : Value Data) : Prop :=
  ∀ value, edited world flavor both value =
    (edited world flavor first value).bind (edited world flavor second)

/-- The files with the functions on setters and with the products of these widths are at hand. -/
structure Supports (widths : List Nat) : Prop where
  /-- The functions on setters. -/
  functions : ∀ name ∈ ["id_setter", "id_async_setter", "then", "then_async"],
    world.function? name = Support.file.function? name
  /-- The maps of single slots. -/
  methods : ∀ width ∈ widths, 2 ≤ width → ∀ slot ∈ slotsUp width,
    world.method? (productType width) (mapSlot slot) =
      (Family.Product.mapItem width slot).routine?

end Setters

section Combinators

variable {Data : Type} {world : World Data} {widths : List Nat} {owner : String}
  {scope : Variables Data}

theorem eval_call_support (supports : Supports world widths) {name : String}
    (known : name ∈ ["id_setter", "id_async_setter", "then", "then_async"]) {routine : Routine}
    (routineIs : Support.file.function? name = some routine) (plain : withoutRawMark name = name)
    (free : scope.lookup name = none) (inputs : List Node) :
    eval world owner scope (.call (.named name) inputs false) =
      (inputs.mapM (eval world owner scope)).bind (call world "" routine) := by
  refine eval_call_function ?_ ?_ inputs false
  · rwa [plain]
  · rw [plain, supports.functions name known, routineIs]

/-- The identity setter. -/
theorem exists_unchanging (supports : Supports world widths) (flavor : Flavor) :
    ∃ same, Unchanging world flavor same ∧
      ∀ owner scope, scope.lookup flavor.identity = none →
        eval world owner scope (.call (.named flavor.identity) [] false) = some same := by
  cases flavor with
  | direct =>
    refine ⟨.closure "" [.input "value" Support.slot] (.named "value") [], ?_, ?_⟩
    · intro value
      simp [edited, apply_closure]
    · intro owner scope (free : scope.lookup "id_setter" = none)
      rw [Flavor.identity, eval_call_support supports (by simp) rfl (by simp) free]
      simp [call_routine, Support.boxed]
  | asynchronous =>
    refine ⟨.closure "" [.input "value" Support.slot]
      (.block [] [Support.pinned (.named "value")]) [], ?_, ?_⟩
    · intro value
      simp [edited, apply_closure, Support.pinned]
    · intro owner scope (free : scope.lookup "id_async_setter" = none)
      rw [Flavor.identity, eval_call_support supports (by simp) rfl (by simp) free]
      simp [call_routine, Support.boxed]

/-- Two setters composed. -/
theorem exists_composed (supports : Supports world widths) (flavor : Flavor)
    {x y : Node} {first second : Value Data} (free : scope.lookup flavor.compose = none)
    (xIs : eval world owner scope x = some first) (yIs : eval world owner scope y = some second) :
    ∃ both, Follows world flavor first second both ∧
      eval world owner scope (.call (.named flavor.compose) [x, y] false) = some both := by
  cases flavor with
  | direct =>
    replace free : scope.lookup "then" = none := free
    refine ⟨.closure "" [.input "value" Support.slot]
      (.call (.named "second") [.call (.named "first") [.named "value"] false] false)
      [("first", first), ("second", second)], ?_, ?_⟩
    · intro value
      simp [edited, apply_closure, eval_call_variable, List.lookup_cons, Option.bind_assoc]
      rfl
    · rw [Flavor.compose, eval_call_support supports (by simp) rfl (by simp) free]
      simp [xIs, yIs, call_routine, Support.boxed]
  | asynchronous =>
    replace free : scope.lookup "then_async" = none := free
    refine ⟨.closure "" [.input "value" Support.slot]
      (.block [] [Support.pinned (.await (.call (.named "second")
        [.await (.call (.named "first") [.named "value"] false)] false))])
      [("first", first), ("second", second)], ?_, ?_⟩
    · intro value
      simp [edited, apply_closure, Support.pinned, eval_call_variable, List.lookup_cons,
        Option.bind_assoc]
      rfl
    · rw [Flavor.compose, eval_call_support supports (by simp) rfl (by simp) free]
      simp [xIs, yIs, call_routine, Support.boxed]

end Combinators

/-! ## Shapes -/

namespace Shape

variable {Data : Type}

@[simp] theorem withoutRawMark_setterVariable (index : Nat) :
    withoutRawMark (setterVariable index) = setterVariable index :=
  withoutRawMark_numbered "setter" (by decide) index

theorem setterVariable_injective : Function.Injective setterVariable :=
  numbered_injective "setter"

theorem nodup_numbers {α β : Type} {name : Nat → β} (injective : Function.Injective name)
    (xs : List α) : ((xs.zipIdx 1).map fun x => name x.2).Nodup := by
  have numbers : (xs.zipIdx 1).map (fun x => name x.2) = ((xs.zipIdx 1).map Prod.snd).map name := by
    rw [List.map_map]
    rfl
  rw [numbers, List.zipIdx_map_snd]
  exact List.Nodup.map injective List.nodup_range'

/-- The components of a product of setters, from the highest slot down. -/
def components (setters : List (Value Data)) : Variables Data :=
  (setters.zipIdx 1).reverse.map fun (setter, i) => (factor i, setter)

/-- The setters of some fields as one value. -/
def value : List (Value Data) → Value Data
  | [] => .tuple []
  | [only] => only
  | setters => .record [productType setters.length] (components setters)

/-- The variables for the setters of some fields. -/
def bindings (setters : List (Value Data)) : Variables Data :=
  (setters.zipIdx 1).reverse.map fun (setter, i) => (setterVariable i, setter)

theorem value_of_two_le {setters : List (Value Data)} (two_le : 2 ≤ setters.length) :
    value setters = .record [productType setters.length] (components setters) := by
  match setters, two_le with
  | _ :: _ :: _, _ => rfl

theorem slotsDown_length {α : Type} (xs : List α) :
    slotsDown xs.length = (xs.zipIdx 1).reverse.map Prod.snd := by
  rw [slotsDown, List.map_reverse, List.zipIdx_map_snd]

theorem nodup_components (setters : List (Value Data)) :
    ((components setters).map Prod.fst).Nodup := by
  rw [components, List.map_map, List.map_reverse, List.nodup_reverse]
  exact nodup_numbers factor_injective setters

theorem nodup_bindings (setters : List (Value Data)) :
    ((bindings setters).map Prod.fst).Nodup := by
  rw [bindings, List.map_map, List.map_reverse, List.nodup_reverse]
  exact nodup_numbers setterVariable_injective setters

theorem components_eq_map {setters : List (Value Data)} {setter : Nat → Value Data}
    (each : ∀ s i, (s, i) ∈ setters.zipIdx 1 → setter i = s) :
    (slotsDown setters.length).map (fun slot => (factor slot, setter slot)) =
      components setters := by
  rw [components, slotsDown_length, List.map_map]
  apply List.map_congr_left
  rintro ⟨s, i⟩ member
  simp [each s i (List.mem_reverse.1 member)]

theorem lookup_components {setters : List (Value Data)} {setter : Value Data} {i : Nat}
    (member : (setter, i) ∈ setters.zipIdx 1) :
    (components setters).lookup (factor i) = some setter :=
  lookup_of_mem (nodup_components setters)
    (List.mem_map.2 ⟨(setter, i), List.mem_reverse.2 member, rfl⟩)

theorem lookup_bindings {setters : List (Value Data)} {setter : Value Data} {i : Nat}
    (member : (setter, i) ∈ setters.zipIdx 1) :
    (bindings setters).lookup (setterVariable i) = some setter :=
  lookup_of_mem (nodup_bindings setters)
    (List.mem_map.2 ⟨(setter, i), List.mem_reverse.2 member, rfl⟩)

theorem pattern_of_two_le {width : Nat} (two_le : 2 ≤ width) :
    pattern width = .fields (.named (productType width))
      ((slotsDown width).map fun slot =>
        .fieldIs (factor slot) (.binding (setterVariable slot))) false := by
  match width, two_le with
  | _ + 2, _ => rfl

theorem identity_of_two_le (flavor : Flavor) {width : Nat} (two_le : 2 ≤ width) :
    identity flavor width = .fields (.named (productType width))
      ((slotsDown width).map fun slot =>
        .fieldIs (factor slot) (.call (.named flavor.identity) [] false)) false := by
  match width, two_le with
  | _ + 2, _ => rfl

/-- A shape's pattern binds the setter of each field to the variable with the field's number. -/
theorem matchPattern_pattern (owner : String) (setters : List (Value Data)) :
    matchPattern owner (pattern setters.length) (value setters) = some (some (bindings setters)) := by
  rcases Nat.lt_or_ge setters.length 2 with small | two_le
  · match setters, small with
    | [], _ => rfl
    | [only], _ => simp [pattern, value, bindings]
  · have once : ((setters.zipIdx 1).reverse.map fun x => withoutRawMark (factor x.2)).Nodup := by
      rw [List.map_reverse, List.nodup_reverse]
      simpa using nodup_numbers factor_injective setters
    have fits := @matchPattern_bindings Data owner _ (setters.zipIdx 1).reverse
      (fun x => factor x.2) (fun x => setterVariable x.2) Prod.fst
      (.named (productType setters.length)) false _ (Node.names?_named _) once
    rw [pattern_of_two_le two_le, value_of_two_le two_le, slotsDown_length, List.map_map]
    simpa [components, bindings, Function.comp_def] using fits

section Evaluation

variable {world : World Data} {widths : List Nat} {owner : String} {scope : Variables Data}

/-- A product literal with a setter in every slot. -/
theorem eval_product {width : Nat} {content : Nat → Node} {setter : Nat → Value Data}
    (comma : Bool)
    (each : ∀ slot ∈ slotsUp width, eval world owner scope (content slot) = some (setter slot)) :
    eval world owner scope (.fields (.named (productType width))
        ((slotsDown width).map fun slot => .fieldIs (factor slot) (content slot)) comma) =
      some (.record [productType width]
        ((slotsDown width).map fun slot => (factor slot, setter slot))) := by
  have once : ((slotsDown width).map fun slot => withoutRawMark (factor slot)).Nodup := by
    rw [slotsDown, List.map_reverse, List.nodup_reverse]
    simpa using List.Nodup.map factor_injective List.nodup_range'
  rw [eval_record _ _ _ _ _ (Node.names?_named _) once]
  have entries : ((slotsDown width).mapM fun slot =>
      (eval world owner scope (content slot)).map (withoutRawMark (factor slot), ·)) =
      some ((slotsDown width).map fun slot => (factor slot, setter slot)) := by
    refine Outcome.mapM_eq_some_map fun slot member => ?_
    rw [each slot (List.mem_reverse.1 member)]
    simp
  rw [entries]
  simp

/-- The identity shape has an unchanging setter in every slot. -/
theorem eval_identity {flavor : Flavor} {same : Value Data}
    (unchanging : eval world owner scope (.call (.named flavor.identity) [] false) = some same)
    (width : Nat) :
    eval world owner scope (identity flavor width) = some (value (List.replicate width same)) := by
  rcases Nat.lt_or_ge width 2 with small | two_le
  · match width, small with
    | 0, _ => simp [identity, value]
    | 1, _ => exact unchanging
  · have slots : (slotsDown width).map (fun slot => (factor slot, same)) =
        components (List.replicate width same) := by
      have all : ∀ s i, (s, i) ∈ (List.replicate width same).zipIdx 1 → same = s := by
        intro s i member
        exact (List.eq_of_mem_replicate (List.fst_mem_of_mem_zipIdx member)).symm
      simpa using components_eq_map all
    rw [identity_of_two_le flavor two_le, eval_product _ fun _ _ => unchanging, slots,
      value_of_two_le (by simpa using two_le), List.length_replicate]

theorem routine?_mapItem (width slot : Nat) :
    (Family.Product.mapItem width slot).routine? =
      some ⟨withoutRawMark (mapSlot slot), false,
        [.self, .input "f" (.someFunction "FnOnce" (.named s!"F{slot}") (.named s!"G{slot}"))],
        [Family.Product.value width fun i =>
          if i = slot then .call (.named "f") [.member .self (factor i)] false
          else .member .self (factor i)]⟩ := rfl

/-- Mapping one slot of a product of setters. -/
theorem call_mapSlot (supports : Supports world widths) {setters : List (Value Data)}
    (width : setters.length ∈ widths) (two_le : 2 ≤ setters.length) {index : Nat}
    {setter after function : Value Data} (here : setters[index]? = some setter)
    (mapped : apply world function [setter] = some after) :
    ∃ routine, world.method? (productType setters.length) (mapSlot (index + 1)) = some routine ∧
      call world (productType setters.length) routine [value setters, function] =
        some (value (setters.set index after)) := by
  obtain ⟨inside, rfl⟩ := List.getElem?_eq_some_iff.1 here
  have slot : index + 1 ∈ slotsUp setters.length := by
    rw [slotsUp, List.mem_range'_1]
    omega
  refine ⟨_, (supports.methods _ width two_le _ slot).trans (routine?_mapItem _ _), ?_⟩
  have inputs : bindInputs (productType setters.length)
      [.self, .input "f" (.someFunction "FnOnce" (.named s!"F{index + 1}")
        (.named s!"G{index + 1}"))] [value setters, function] =
      some [("self", value setters), ("f", function)] := by
    simp
  -- what stands in each slot afterwards
  let result (i : Nat) : Value Data :=
    if i = index + 1 then after else (setters[i - 1]?).getD after
  have each : ∀ i ∈ slotsUp setters.length,
      eval world (productType setters.length) [("self", value setters), ("f", function)]
        (if i = index + 1 then .call (.named "f") [.member .self (factor i)] false
          else .member .self (factor i)) = some (result i) := by
    intro i member
    rw [slotsUp, List.mem_range'_1] at member
    have there : (setters[i - 1], i) ∈ setters.zipIdx 1 := by
      rw [List.mem_zipIdx_iff_le_and_getElem?_sub]
      exact ⟨member.1, List.getElem?_eq_getElem (by omega)⟩
    have component : eval world (productType setters.length)
        [("self", value setters), ("f", function)] (.member .self (factor i)) =
        some setters[i - 1] := by
      have selfIs : eval world (productType setters.length)
          [("self", value setters), ("f", function)] .self =
          some (.record [productType setters.length] (components setters)) := by
        simp [value_of_two_le two_le]
      rw [eval_member selfIs, withoutRawMark_factor, lookup_components there]
    by_cases target : i = index + 1
    · subst target
      have callable : (List.lookup (withoutRawMark "f")
          [("self", value setters), ("f", function)]).isSome := rfl
      rw [if_pos rfl, eval_call_variable callable]
      simp only [List.mapM_cons, List.mapM_nil, component]
      simpa [List.lookup_cons, result] using mapped
    · rw [if_neg target, component]
      simp [result, target, List.getElem?_eq_getElem (show i - 1 < setters.length by omega)]
  have slots : (slotsDown setters.length).map (fun i => (factor i, result i)) =
      components (setters.set index after) := by
    have all : ∀ s i, (s, i) ∈ (setters.set index after).zipIdx 1 → result i = s := by
      intro s i member
      rw [List.mem_zipIdx_iff_le_and_getElem?_sub] at member
      obtain ⟨positive, found⟩ := member
      rw [List.getElem?_set] at found
      by_cases target : i = index + 1
      · subst target
        simpa [result, inside] using found
      · have other : index ≠ i - 1 := by omega
        simp only [if_neg other] at found
        simp [result, target, found]
    simpa using components_eq_map all
  rw [call_routine inputs]
  simp only [Bool.false_eq_true, if_false, run_singleton, Family.Product.value]
  rw [eval_product _ each, slots, value_of_two_le (by simpa using two_le), List.length_set]

/-- Composing an edit into one slot puts it behind that slot's setter and leaves all other slots
alone. -/
theorem exists_composeSlot (supports : Supports world widths) (flavor : Flavor)
    {setters : List (Value Data)} (width : setters.length ∈ widths) {index : Nat}
    {setter edit : Value Data} (here : setters[index]? = some setter) {shape : String}
    (shapeIs : scope.lookup (withoutRawMark shape) = some (value setters))
    (editIs : scope.lookup "f" = some edit) (free : scope.lookup flavor.compose = none)
    (type : Node) :
    ∃ after, Follows world flavor setter edit after ∧
      eval world owner scope (composeSlot flavor setters.length (index + 1) type shape) =
        some (value (setters.set index after)) := by
  have boxed (scope : Variables Data) (editIs : scope.lookup "f" = some edit) :
      eval world owner scope (.call (.namedAlong ["Box", "new"]) [.named "f"] false) =
        some edit := by
    simpa using editIs
  have shapeValue : eval world owner scope (.named shape) = some (value setters) := by
    rw [eval_named, shapeIs]
  have inside : index < setters.length := (List.getElem?_eq_some_iff.1 here).1
  rcases Nat.lt_or_ge setters.length 2 with small | two_le
  · match setters, small with
    | [], _ => cases here
    | [only], _ =>
      have first : index = 0 := by simpa using inside
      subst first
      cases here
      exact exists_composed supports flavor free shapeValue (boxed scope editIs)
  · have other : flavor.compose ≠ "old" := by cases flavor <;> decide
    have freeInside : List.lookup flavor.compose (("old", setter) :: scope) = none := by
      rw [List.lookup_cons, beq_false_of_ne other]
      exact free
    have oldIs : eval world owner (("old", setter) :: scope) (.named "old") = some setter := by
      simp
    have editInside : List.lookup "f" (("old", setter) :: scope) = some edit := by
      simpa [List.lookup_cons] using editIs
    obtain ⟨after, follows, composed⟩ :=
      exists_composed supports flavor freeInside oldIs (boxed _ editInside)
    have mapped : apply world
        (.closure owner [.input "old" (.applied flavor.setterType [type])]
          (.call (.named flavor.compose)
            [.named "old", .call (.namedAlong ["Box", "new"]) [.named "f"] false] false) scope)
        [setter] = some after := by
      have inputs : bindInputs owner [.input "old" (.applied flavor.setterType [type])] [setter] =
          some [("old", setter)] := by simp
      rw [apply_closure inputs]
      exact composed
    obtain ⟨routine, routineIs, called⟩ := call_mapSlot supports width two_le here mapped
    have form : composeSlot flavor setters.length (index + 1) type shape =
        .method (.named shape) (mapSlot (index + 1)) none
          [.closure none ["move"] [.input "old" (.applied flavor.setterType [type])] false none
            (.call (.named flavor.compose)
              [.named "old", .call (.namedAlong ["Box", "new"]) [.named "f"] false] false)]
          false := by
      rw [composeSlot, if_neg (by omega)]
    refine ⟨after, follows, ?_⟩
    rw [form, eval_method shapeValue (by simp; rfl) (by rw [value_of_two_le two_le]; rfl)
      (by rwa [withoutRawMark_mapSlot])]
    exact called

end Evaluation

end Shape

/-! ## The files that shapes rest on -/

/-- The files are products and sums, the products of these widths among them. -/
structure FamilyFiles (widths : List Nat) (files : List File) : Prop where
  /-- Every file is a product or a sum. -/
  generated : ∀ file ∈ files, (∃ width place, Family.Product.file width place = .ok file) ∨
    ∃ dimension place, Family.Sum.file dimension place = .ok file
  /-- Every shape that needs a product finds it. -/
  present : ∀ width ∈ widths, 2 ≤ width →
    ∃ place, ∃ file ∈ files, Family.Product.file width place = .ok file

theorem find?_flatMap {α β : Type} {f : α → List β} {p : β → Bool} {y : β} {xs : List α}
    (each : ∀ x ∈ xs, (f x).find? p = none ∨ (f x).find? p = some y)
    (found : ∃ x ∈ xs, (f x).find? p = some y) : (xs.flatMap f).find? p = some y := by
  induction xs with
  | nil => simp at found
  | cons x rest ih =>
    rw [List.flatMap_cons, List.find?_append]
    rcases each x List.mem_cons_self with absent | present
    · rw [absent, Option.none_or]
      refine ih (fun z member => each z (List.mem_cons_of_mem _ member)) ?_
      obtain ⟨z, member, present⟩ := found
      rcases List.mem_cons.1 member with rfl | member
      · rw [absent] at present
        cases present
      · exact ⟨z, member, present⟩
    · rw [present, Option.some_or]

theorem methodsOn_product {width : Nat} {place : Place} {file : File}
    (h : Family.Product.file width place = .ok file) (other : Nat) :
    file.methodsOn (productType other) =
      if width = other then
        ((slotsDown width).map (Family.Product.mapItem width) ++
          [Family.Product.asRefs width]).filterMap Node.routine?
      else [] := by
  obtain ⟨path, -, h⟩ := Outcome.bind_eq_ok_iff.1 h
  cases Outcome.pure_eq_ok_iff.1 h
  have subject : (Family.Product.type width (slotNames "F" width 1)).names? =
      some [productType width] := by
    simp [Family.Product.type, Node.appliedTo, Node.applied, Node.names?]
  have own : Node.methodsOn (productType other)
      (.methodsOf (some (.parameters (slotNames "F" width 1)))
        (Family.Product.type width (slotNames "F" width 1))
        ((slotsDown width).map (Family.Product.mapItem width) ++
          [Family.Product.asRefs width])) =
      if width = other then
        ((slotsDown width).map (Family.Product.mapItem width) ++
          [Family.Product.asRefs width]).filterMap Node.routine?
      else [] := by
    simp only [Node.methodsOf, Node.methodsOn, subject, Option.some.injEq, List.cons.injEq,
      and_true, productType_injective.eq_iff]
  have projections : ((slotsUp width).map (Family.Product.projectionItem width)).flatMap
      (Node.methodsOn (productType other)) = [] := by
    rw [List.flatMap_map, List.flatMap_eq_nil_iff]
    exact fun _ _ => rfl
  rw [File.methodsOn, List.flatMap_append, List.flatMap_append, projections,
    List.flatMap_singleton, own]
  rfl

theorem methodsOn_sum {dimension : Nat} {place : Place} {file : File}
    (h : Family.Sum.file dimension place = .ok file) (width : Nat) :
    file.methodsOn (productType width) = [] := by
  obtain ⟨path, -, h⟩ := Outcome.bind_eq_ok_iff.1 h
  cases Outcome.pure_eq_ok_iff.1 h
  have subject : (Family.Sum.type dimension (slotNames "S" dimension 1)).names? =
      some [sumType dimension] := by
    simp [Family.Sum.type, Node.appliedTo, Node.applied, Node.names?]
  have other : sumType dimension ≠ productType width :=
    numbered_ne (by decide) (by decide) dimension width
  have own : Node.methodsOn (productType width)
      (.methodsOf (some (.parameters (slotNames "S" dimension 1)))
        (Family.Sum.type dimension (slotNames "S" dimension 1))
        ((slotsDown dimension).map (Family.Sum.mapItem dimension))) = [] := by
    simp [Node.methodsOf, Node.methodsOn, subject, other]
  have function : Node.methodsOn (productType width) (Family.Sum.caseFunction dimension) = [] := by
    unfold Family.Sum.caseFunction Node.behind
    split <;> rfl
  have injections : ((slotsUp dimension).map (Family.Sum.injectionItem dimension)).flatMap
      (Node.methodsOn (productType width)) = [] := by
    rw [List.flatMap_map, List.flatMap_eq_nil_iff]
    exact fun _ _ => rfl
  rw [File.methodsOn, List.flatMap_append, List.flatMap_append, injections,
    List.flatMap_singleton, own]
  simp only [List.flatMap_cons, function]
  rfl

theorem find?_mapItem {width slot : Nat} {slots : List Nat} (inside : slot ∈ slots)
    (others : List Node) :
    ((slots.map (Family.Product.mapItem width) ++ others).filterMap Node.routine?).find?
      (·.name == mapSlot slot) = (Family.Product.mapItem width slot).routine? := by
  induction slots with
  | nil => cases inside
  | cons i rest ih =>
    rw [List.map_cons, List.cons_append, List.filterMap_cons, Shape.routine?_mapItem]
    by_cases same : i = slot
    · subst same
      simp [Shape.routine?_mapItem]
    · have later : slot ∈ rest := (List.mem_cons.1 inside).resolve_left (Ne.symm same)
      have different : mapSlot i ≠ mapSlot slot := mapSlot_injective.ne same
      simpa [different] using ih later

/-- The functions and methods that shapes use are found in the files for them. -/
theorem supports_of_files {Data : Type} {world : World Data} {widths : List Nat}
    {files : List File} (filesAre : world.files = Support.file :: files)
    (family : FamilyFiles widths files) : Supports world widths := by
  constructor
  · intro name known
    have defined : (Support.file.function? name).isSome := by
      simp only [List.mem_cons, List.not_mem_nil, or_false] at known
      obtain rfl | rfl | rfl | rfl := known <;> rfl
    obtain ⟨routine, routineIs⟩ := Option.isSome_iff_exists.1 defined
    rw [World.function?, filesAre, List.findSome?_cons, routineIs]
  · intro width member two_le slot inside
    have support : Support.file.methodsOn (productType width) = [] := rfl
    have down : slot ∈ slotsDown width := List.mem_reverse.2 inside
    rw [World.method?, filesAre, List.flatMap_cons, support, List.nil_append]
    obtain ⟨place, file, present, generated⟩ := family.present width member two_le
    rw [Shape.routine?_mapItem]
    apply find?_flatMap
    · intro other among
      obtain ⟨_, _, otherGenerated⟩ | ⟨_, _, otherGenerated⟩ := family.generated other among
      · rw [methodsOn_product otherGenerated]
        split
        · next same =>
          subst same
          rw [find?_mapItem down, Shape.routine?_mapItem]
          exact .inr rfl
        · exact .inl rfl
      · rw [methodsOn_sum otherGenerated]
        exact .inl rfl
    · refine ⟨file, present, ?_⟩
      rw [methodsOn_product generated, if_pos rfl, find?_mapItem down, Shape.routine?_mapItem]

end Slotwise.Optics
