import Slotwise.Family.Duality
import Slotwise.Proofs.Dimensions
import Slotwise.Proofs.Ownership
import Slotwise.Proofs.SlotOrder
/-!
# Duality round trips

Read as a map, `oppose_sumN` splits a function out of a sum into a product of functions, and
`oppose_productN` makes a product of functions a function out of the sum again. Each undoes the
other (`Dual.functions`, `Dual.products`), and `measureN` does what `oppose_productN` does
(`Dual.measures`).

Splitting shares one function among the slots. Its body is followed statement by statement twice,
for the values that the handles stand for (`run_handles`, `run_splitting`) and for the variables
that are still full (`ownedAfter_handles`, `ownedAfter_splitting`).

Main statement: the files of a sum and of its duality are `Dual` (`dual_of_files`).
-/

namespace Slotwise.Family

open Code Naming

namespace Duality

variable {Data : Type} {world : World Data} {dimension : Nat}

/-! ## Names -/

theorem handle_ne_shared (slot : Nat) : s!"f{slot}" ≠ "f" := by
  intro same
  have texts := congrArg String.toList same
  simp [Nat.toDigits_ne_nil] at texts

theorem spelled_injection (dimension slot : Nat) (arguments : Option Node) :
    (Node.path false [.segment (injection dimension slot) arguments]).names? =
      some [injection dimension slot] := by
  exact congrArg (some [·]) (withoutRawMark_injection dimension slot)

theorem withoutRawMark_uniform (dimension : Nat) :
    withoutRawMark s!"measure{dimension}_uniform" = s!"measure{dimension}_uniform" := by
  apply withoutRawMark_of_not_mem
  simp only [toString_text, String.toList_append, List.mem_append, digits_markFree, or_false]
  decide

theorem factors_eq (dimension : Nat) : Product.factors dimension = (slotsDown dimension).map factor := rfl

/-! ## The function that splits a function -/

/-- The declaration of a further handle on the shared function. -/
def handle (slot : Nat) : Node :=
  .letIs s!"f{slot}" (.call (.namedAlong ["Rc", "clone"]) [.shared (.named "f")] false)

/-- The value put into the case of a slot. -/
def injected (dimension slot : Nat) : Node :=
  .call (.call (.path false [.segment (injection dimension slot)
    (some (.angled true ((slotNames "F" dimension 1).map .named) false))]) [] false)
    [.named "value"] false

/-- The call of the function behind a handle. -/
def forwarded (dimension slot : Nat) : Node :=
  .call (.paren (.unary "*" (.named s!"f{slot}"))) [injected dimension slot] false

/-- The function becomes shared, every slot but the first gets a handle of its own, the first one
gets the shared function itself, and the product takes all of them. -/
def splitting (dimension : Nat) : List Node :=
  .letIs "f" (.call (.namedAlong ["Rc", "new"]) [.named "f"] false) ::
    (((slotsDown dimension).filter (· ≠ 1)).map handle ++
      [.letIs "f1" (.named "f"),
        Product.value dimension fun slot =>
          .closure none ["move"] [.input "value" (.named s!"F{slot}")] false none
            (forwarded dimension slot)])

theorem routine?_opposeSum (dimension : Nat) :
    (opposeSum dimension).routine? =
      some ⟨withoutRawMark s!"oppose_sum{dimension}", false,
        [.input "f" (.someFunction "Fn" (Sum.type dimension (slotNames "F" dimension 1))
          (.named "T"))],
        splitting dimension⟩ := by
  rfl

/-! ## The functions as maps -/

/-- The functions of a sum and of its duality are at hand. -/
structure AtHand (world : World Data) (dimension : Nat) : Prop where
  /-- From a product of functions to a function. -/
  opposeProduct : world.function? s!"oppose_product{dimension}" =
    (opposeProduct dimension).routine?
  /-- From a function to a product of functions. -/
  opposeSum : world.function? s!"oppose_sum{dimension}" = (opposeSum dimension).routine?
  /-- The measure by a product of functions. -/
  measure : world.function? s!"measure{dimension}" = (measure dimension).routine?
  /-- The measure by one function. -/
  measureUniform : world.function? s!"measure{dimension}_uniform" =
    (measureUniform dimension).routine?
  /-- The function that handles all cases. -/
  caseFunction : world.function? s!"sum{dimension}" = (Sum.caseFunction dimension).routine?
  /-- The functions that put values into cases. -/
  injections : ∀ slot, 1 ≤ slot → slot ≤ dimension →
    world.function? (injection dimension slot) = (Sum.injectionItem dimension slot).routine?

variable (hand : AtHand world dimension)

include hand

/-- An injection makes a case. -/
theorem exists_injection {slot : Nat} (positive : 1 ≤ slot) (below : slot ≤ dimension) :
    ∃ function, world.invoke (injection dimension slot) [] = some function ∧
      ∀ value, apply world function [value] = some (caseOf dimension slot value) := by
  rw [World.invoke, hand.injections slot positive below]
  exact Sum.call_injectionItem world rfl

/-- Handling all cases by one function for each. -/
theorem exists_caseFunction (handler : Nat → Value Data) :
    ∃ function, world.invoke s!"sum{dimension}" ((slotsDown dimension).map handler) =
        some function ∧
      ∀ slot, 1 ≤ slot → slot ≤ dimension → ∀ value,
        apply world function [caseOf dimension slot value] = apply world (handler slot) [value] := by
  rw [World.invoke, hand.caseFunction]
  exact Sum.call_caseFunction world rfl handler

/-- A product of functions becomes the function that handles each case by the function in its
slot. -/
theorem exists_opposeProduct (handler : Nat → Value Data) :
    ∃ function, world.invoke s!"oppose_product{dimension}" [productOf dimension handler] =
        some function ∧
      ∀ slot, 1 ≤ slot → slot ≤ dimension → ∀ value,
        apply world function [caseOf dimension slot value] = apply world (handler slot) [value] := by
  obtain ⟨function, handles, acts⟩ := exists_caseFunction hand handler
  refine ⟨function, ?_, acts⟩
  let scope : Variables Data :=
    ((slotsDown dimension).map fun slot => (factor slot, handler slot)) ++
      [("product", productOf dimension handler)]
  have inputs (type : Node) : bindInputs "" [.input "product" type]
      [productOf dimension handler] = some [("product", productOf dimension handler)] := by simp
  have fits : matchPattern "" (.fields (.named (productType dimension))
      ((Product.factors dimension).map .binding) false) (productOf dimension handler) =
      some (some ((slotsDown dimension).map fun slot => (factor slot, handler slot))) := by
    rw [factors_eq, List.map_map]
    exact matchPattern_factors dimension handler false
  have components : ((Product.factors dimension).map Node.named).mapM (eval world "" scope) =
      some ((slotsDown dimension).map handler) := by
    rw [factors_eq, List.map_map]
    refine mapM_named_variables (slotsDown dimension) factor handler fun slot member => ?_
    rw [withoutRawMark_factor, List.lookup_append]
    exact Option.or_eq_some_iff.2
      (.inl (lookup_numbered (nodup_slotsDown dimension) handler member))
  have free : scope.lookup s!"sum{dimension}" = none := by
    rw [List.lookup_append, Option.or_eq_none_iff]
    constructor
    · refine lookup_numbered_of_ne handler fun slot _ => ?_
      exact numbered_ne (by decide) (by decide) dimension slot
    · rw [lookup_cons_of_ne (numbered_ne_name (by decide) (by decide) dimension)]
      rfl
  have spelled : (Node.named s!"sum{dimension}").names? = some [s!"sum{dimension}"] :=
    congrArg (some [·]) (withoutRawMark_numbered "sum" (by decide) dimension)
  rw [World.invoke, hand.opposeProduct]
  simp only [opposeProduct, Node.publicFunction, Node.isPublic, Node.routine?,
    Option.bind_some]
  rw [call_routine (inputs _)]
  simp only [List.any_nil, Bool.false_eq_true, if_false]
  rw [run_let (by simp) fits, run_singleton]
  rw [eval_invoke spelled free, components, Option.bind_some, handles]

omit hand in
/-- Each further handle is one more variable with the shared value. -/
theorem run_handles {names : List String} (known : "f" ∈ names) (function : Value Data)
    (slots : List Nat) {rest : List Node} (more : rest ≠ []) :
    run world "" (names.map fun name => (name, function)) (slots.map handle ++ rest) =
      run world "" (((slots.map fun slot => s!"f{slot}").reverse ++ names).map fun name =>
        (name, function)) rest := by
  induction slots generalizing names with
  | nil => rfl
  | cons slot others ih =>
    have shared : eval world "" (names.map fun name => (name, function))
        (.call (.namedAlong ["Rc", "clone"]) [.shared (.named "f")] false) = some function := by
      rw [eval_counted (.inr rfl), eval_shared, eval_named, withoutRawMark_of_not_mem (by decide),
        lookup_same, if_pos known]
    rw [List.map_cons, List.cons_append, handle, run_letIs shared (by simp [more]),
      withoutRawMark_handle, ← List.map_cons (f := fun name => (name, function)),
      ih (List.mem_cons_of_mem _ known)]
    simp

omit hand in
/-- The split function is a product, each component of which sees every handle. -/
theorem run_splitting (function : Value Data) :
    ∃ names : List String, (∀ slot, 1 ≤ slot → slot ≤ dimension → s!"f{slot}" ∈ names) ∧
      (∀ name ∈ names, name.toList.head? = some 'f') ∧
      run world "" [("f", function)] (splitting dimension) =
        some (productOf dimension fun slot =>
          .closure "" [.input "value" (.named s!"F{slot}")] (forwarded dimension slot)
            (names.map fun name => (name, function))) := by
  let further : List String := ((slotsDown dimension).filter (· ≠ 1)).map fun slot => s!"f{slot}"
  let bind (name : String) : String × Value Data := (name, function)
  refine ⟨"f1" :: (further.reverse ++ ["f", "f"]), ?_, ?_, ?_⟩
  · intro slot positive below
    by_cases first : slot = 1
    · subst first
      have lowest : s!"f{1}" = "f1" := by decide
      exact lowest ▸ List.mem_cons_self
    · refine List.mem_cons_of_mem _ (List.mem_append_left _ (List.mem_reverse.2 ?_))
      refine List.mem_map.2 ⟨slot, List.mem_filter.2 ⟨mem_slotsDown.2 ⟨positive, below⟩, ?_⟩, rfl⟩
      simpa using first
  · intro name inside
    simp only [further, List.mem_cons, List.mem_append, List.mem_reverse, List.mem_map,
      List.not_mem_nil, or_false] at inside
    obtain rfl | ⟨slot, -, rfl⟩ | rfl | rfl := inside <;> simp
  · have counted : eval world "" (["f"].map bind)
        (.call (.namedAlong ["Rc", "new"]) [.named "f"] false) = some function := by
      rw [eval_counted (.inl rfl)]
      simp [bind]
    have last : eval world "" ((further.reverse ++ ["f", "f"]).map bind) (.named "f") =
        some function := by
      rw [eval_named, withoutRawMark_of_not_mem (by decide), lookup_same, if_pos (by simp)]
    have start : [("f", function)] = ["f"].map bind := rfl
    rw [start, splitting, run_letIs counted (by simp), withoutRawMark_of_not_mem (by decide),
      ← List.map_cons (f := bind), run_handles (by simp) function _ (by simp),
      run_letIs last (by simp), withoutRawMark_of_not_mem (by decide),
      ← List.map_cons (f := bind), run_singleton, Product.value]
    exact eval_productLiteral (fun slot _ _ => eval_closure _ _ _ _ _ _) true

/-- A function becomes a product of functions, each of which calls it with a case of its slot. -/
theorem exists_opposeSum (function : Value Data) :
    ∃ handler, world.invoke s!"oppose_sum{dimension}" [function] =
        some (productOf dimension handler) ∧
      ∀ slot, 1 ≤ slot → slot ≤ dimension → ∀ value,
        apply world (handler slot) [value] =
          apply world function [caseOf dimension slot value] := by
  obtain ⟨names, listed, heads, ran⟩ := @run_splitting Data world dimension function
  have invoked : world.invoke s!"oppose_sum{dimension}" [function] =
      run world "" [("f", function)] (splitting dimension) := by
    have inputs (type : Node) : bindInputs "" [.input "f" type] [function] =
        some [("f", function)] := by simp
    rw [World.invoke, hand.opposeSum, routine?_opposeSum, Option.bind_some,
      call_routine (inputs _)]
    rfl
  refine ⟨_, invoked.trans ran, ?_⟩
  · intro slot positive below value
    let scope : Variables Data := ("value", value) :: names.map fun name => (name, function)
    obtain ⟨inject, injects, makes⟩ := exists_injection hand positive below
    have bound : bindInputs "" [.input "value" (.named s!"F{slot}")] [value] =
        some [("value", value)] := by simp
    have free : scope.lookup (injection dimension slot) = none := by
      rw [lookup_cons_of_ne (injection_ne (by decide) dimension slot), lookup_same, if_neg]
      intro inside
      refine injection_ne ?_ dimension slot rfl
      rw [heads _ inside]
      decide
    have functionIs : eval world "" scope (.paren (.unary "*" (.named s!"f{slot}"))) =
        some function := by
      rw [eval_paren, eval_unary, eval_named, withoutRawMark_handle,
        lookup_cons_of_ne (handle_ne (by decide) slot), lookup_same,
        if_pos (listed slot positive below)]
    have caseIs : eval world "" scope (injected dimension slot) =
        some (caseOf dimension slot value) := by
      have injectIs : eval world "" scope
          (.call (.path false [.segment (injection dimension slot)
            (some (.angled true ((slotNames "F" dimension 1).map .named) false))]) [] false) =
          some inject := by
        rw [eval_invoke (spelled_injection dimension slot _) free]
        simpa using injects
      have valueIs : [Node.named "value"].mapM (eval world "" scope) = some [value] := by
        simp [scope]
      rw [injected, eval_call_value rfl injectIs valueIs, makes]
    rw [apply_closure bound]
    exact eval_call_value rfl functionIs (by simp [caseIs]) false

/-- A measure applies the function in the slot of the case at hand. -/
theorem invoke_measure (handler : Nat → Value Data) {slot : Nat} (positive : 1 ≤ slot)
    (below : slot ≤ dimension) (value : Value Data) :
    world.invoke s!"measure{dimension}" [caseOf dimension slot value, productOf dimension handler] =
      apply world (handler slot) [value] := by
  have inputs (sum functions : Node) : bindInputs ""
      [.input "sum" sum, .input "measure" functions]
      [caseOf dimension slot value, productOf dimension handler] =
      some [("sum", caseOf dimension slot value), ("measure", productOf dimension handler)] := by
    simp
  have sumIs : List.lookup (withoutRawMark "sum")
      [("sum", caseOf dimension slot value), ("measure", productOf dimension handler)] =
      some (caseOf dimension slot value) := by simp
  have functionIs : eval world "" [("value", value), ("sum", caseOf dimension slot value),
      ("measure", productOf dimension handler)]
      (.paren (.member (.named "measure") (factor slot))) = some (handler slot) := by
    rw [eval_paren]
    exact eval_factor (by simp [List.lookup_cons]) positive below
  rw [World.invoke, hand.measure]
  simp only [measure, Node.publicFunction, Node.isPublic, Node.routine?, Option.bind_some]
  rw [call_routine (inputs _ _)]
  simp only [List.any_nil, Bool.false_eq_true, if_false, run_singleton]
  rw [eval_byCase positive below sumIs, withoutRawMark_of_not_mem (by decide)]
  exact eval_call_value rfl functionIs (by simp) false

omit hand

/-! ## The uniform measure -/

/-- The body is one choice with one arm, whose alternatives each case fits exactly once, at the
position of its slot, and the arm applies the measure to what the alternative binds. -/
def MatchesEachOnce (world : World Data) (dimension : Nat) (routine : Routine) : Prop :=
  ∃ patterns body,
    routine.body = [.choice (.named "sum") [.arm (.alternatives false patterns) none body true]] ∧
      ∀ slot, 1 ≤ slot → slot ≤ dimension → ∀ value measure, ∃ scope,
        bindInputs "" routine.inputs [caseOf dimension slot value, measure] = some scope ∧
          eval world "" scope (.named "sum") = some (caseOf dimension slot value) ∧
          (patterns.map fun pattern => matchPattern "" pattern (caseOf dimension slot value)) =
            ((slotsDown dimension).map fun other =>
              if other = slot then some (some [("value", value)]) else some none) ∧
          eval world "" (("value", value) :: scope) body = apply world measure [value]

theorem matchesEachOnce (world : World Data) (dimension : Nat) {routine : Routine}
    (routineIs : (measureUniform dimension).routine? = some routine) :
    MatchesEachOnce world dimension routine := by
  cases routineIs
  refine ⟨_, _, rfl, fun slot positive below value measure => ?_⟩
  refine ⟨[("sum", caseOf dimension slot value), ("measure", measure)], by simp, by simp, ?_, ?_⟩
  · rw [List.map_map]
    refine List.map_congr_left fun other _ => ?_
    rw [Function.comp_apply, matchPattern_inCase, withoutRawMark_of_not_mem (by decide)]
  · rw [eval_call_variable (by rfl)]
    simp [List.lookup_cons]

/-! ## Ownership -/

theorem viewed_shared (owned : List String) (member : "f" ∈ owned) :
    afterUses owned (Node.call (.namedAlong ["Rc", "clone"]) [.shared (.named "f")] false).uses =
      some owned := by
  have uses : (Node.call (.namedAlong ["Rc", "clone"]) [.shared (.named "f")] false).uses =
      [(.viewed, "f")] := by decide
  rw [uses, afterUses, if_pos (List.contains_iff_mem.2 member), afterUses]

/-- Each further handle is one more variable that is full. -/
theorem ownedAfter_handles {slots : List Nat} (once : slots.Nodup) {owned : List String}
    (known : "f" ∈ owned) (fresh : ∀ slot ∈ slots, s!"f{slot}" ∉ owned) (rest : List Node) :
    ownedAfter owned (slots.map handle ++ rest) =
      ownedAfter ((slots.map fun slot => s!"f{slot}").reverse ++ owned) rest := by
  induction slots generalizing owned with
  | nil => rfl
  | cons slot others ih =>
    rw [List.nodup_cons] at once
    have kept : owned.filter (· ≠ s!"f{slot}") = owned := by
      refine List.filter_eq_self.2 fun name member => ?_
      have other : name ≠ s!"f{slot}" := fun same => fresh slot List.mem_cons_self (same ▸ member)
      simpa using other
    have later : ∀ i ∈ others, s!"f{i}" ∉ s!"f{slot}" :: owned := by
      intro i member
      rw [List.mem_cons, not_or]
      refine ⟨fun same => once.1 ?_, fresh i (List.mem_cons_of_mem _ member)⟩
      exact (numbered_injective "f" same) ▸ member
    rw [List.map_cons, List.cons_append, handle, ownedAfter_letIs, viewed_shared owned known,
      Option.bind_some, withoutRawMark_handle, kept, ih once.2 (List.mem_cons_of_mem _ known) later]
    simp

theorem uses_forwarded (dimension slot : Nat) :
    (forwarded dimension slot).uses = [(.viewed, s!"f{slot}"), (.moved, "value")] := by
  have handleUses : (Node.paren (.unary "*" (.named s!"f{slot}"))).uses =
      [(.viewed, s!"f{slot}")] := by
    rw [Node.uses, Node.uses, Node.named, Node.uses, withoutRawMark_handle]
    rfl
  rw [forwarded, Node.uses, handleUses]
  rfl

/-- The product takes the handle of every slot along and nothing else. -/
theorem uses_components (dimension : Nat) :
    (Product.value dimension fun slot =>
      .closure none ["move"] [.input "value" (.named s!"F{slot}")] false none
        (forwarded dimension slot)).uses =
      ((slotsDown dimension).map fun slot => s!"f{slot}").map (.moved, ·) := by
  have each (slot : Nat) : (Node.fieldIs (factor slot)
      (.closure none ["move"] [.input "value" (.named s!"F{slot}")] false none
        (forwarded dimension slot))).uses = [(.moved, s!"f{slot}")] := by
    rw [Node.fieldIs, Node.uses, Node.uses, uses_forwarded]
    exact captured_input (handle_ne (by decide) slot) _ _ _
  rw [Product.value, Node.uses, usesOfAll_eq_flatMap, List.flatMap_map, List.map_map,
    List.map_eq_flatMap]
  exact List.flatMap_congr fun slot _ => each slot

/-- Every handle is bound before it is used and moved once, and nothing else is left. -/
theorem ownedAfter_splitting (positive : 1 ≤ dimension) :
    ownedAfter ["f"] (splitting dimension) = some [] := by
  let further : List Nat := (slotsDown dimension).filter (· ≠ 1)
  have once : further.Nodup := (nodup_slotsDown dimension).filter _
  have handles : ((slotsDown dimension).map fun slot => s!"f{slot}").Perm
      ("f1" :: (further.map fun slot => s!"f{slot}").reverse) := by
    have first : 1 ∈ slotsDown dimension := mem_slotsDown.2 ⟨Nat.le_refl 1, positive⟩
    have slots : (slotsDown dimension).Perm (1 :: further) := by
      have others : (slotsDown dimension).erase 1 = further := by
        rw [(nodup_slotsDown dimension).erase_eq_filter]
        refine List.filter_congr fun slot _ => ?_
        by_cases first : slot = 1 <;> simp [first]
      rw [← others]
      exact List.perm_cons_erase first
    exact (slots.map _).trans ((List.reverse_perm _).symm.cons _)
  have start : afterUses ["f"] (Node.call (.namedAlong ["Rc", "new"]) [.named "f"] false).uses =
      some [] := by decide
  have fresh : ∀ slot ∈ further, s!"f{slot}" ∉ ["f"] := by
    intro slot _ inside
    exact handle_ne_shared slot (List.mem_singleton.1 inside)
  have last : afterUses ((further.map fun slot => s!"f{slot}").reverse ++ ["f"])
      (Node.named "f").uses = some (further.map fun slot => s!"f{slot}").reverse := by
    have absent : "f" ∉ (further.map fun slot => s!"f{slot}").reverse := by
      intro inside
      obtain ⟨slot, -, same⟩ := List.mem_map.1 (List.mem_reverse.1 inside)
      exact handle_ne_shared slot same
    have uses : (Node.named "f").uses = [(.moved, "f")] := by decide
    rw [uses, afterUses, if_pos (by simp)]
    simp only [List.erase_append_right _ absent, List.erase_cons_head, List.append_nil, afterUses]
  have kept : ((further.map fun slot => s!"f{slot}").reverse).filter (· ≠ "f1") =
      (further.map fun slot => s!"f{slot}").reverse := by
    refine List.filter_eq_self.2 fun name inside => ?_
    obtain ⟨slot, member, rfl⟩ := List.mem_map.1 (List.mem_reverse.1 inside)
    have other : slot ≠ 1 := by simpa using (List.mem_filter.1 member).2
    have lowest : "f1" = s!"f{1}" := by decide
    rw [lowest]
    exact decide_eq_true ((numbered_injective "f").ne other)
  rw [splitting, ownedAfter_letIs, start, Option.bind_some, withoutRawMark_of_not_mem (by decide),
    List.filter_nil, ownedAfter_handles once (by simp) fresh, ownedAfter_letIs, last,
    Option.bind_some, withoutRawMark_of_not_mem (by decide), kept, ownedAfter, uses_components,
    afterUses_moved handles]
  · rfl
  · simp [Product.value]

/-- Once the function is shared, only the first slot moves it. -/
theorem moves_splitting (dimension : Nat) :
    (splitting dimension).tail.filter (fun statement => statement.uses.contains (.moved, "f")) =
      [.letIs "f1" (.named "f")] := by
  have further : (((slotsDown dimension).filter (· ≠ 1)).map handle).filter
      (fun statement => statement.uses.contains (.moved, "f")) = [] := by
    refine List.filter_eq_nil_iff.2 fun statement inside => ?_
    obtain ⟨slot, -, rfl⟩ := List.mem_map.1 inside
    have uses : (handle slot).uses = [(.viewed, "f")] := by
      rw [handle, Node.letIs, Node.uses]
      decide
    rw [uses]
    decide
  have first : (Node.letIs "f1" (.named "f")).uses.contains (.moved, "f") = true := by decide
  have last : (Product.value dimension fun slot =>
      .closure none ["move"] [.input "value" (.named s!"F{slot}")] false none
        (forwarded dimension slot)).uses.contains (.moved, "f") = false := by
    rw [uses_components, List.map_map, List.contains_eq_any_beq, List.any_eq_false]
    intro use inside
    obtain ⟨slot, -, rfl⟩ := List.mem_map.1 inside
    simpa using (handle_ne_shared slot).symm
  rw [splitting, List.tail_cons, List.filter_append, further, List.nil_append]
  simp only [List.filter_cons, first, last, List.filter_nil, if_true, Bool.false_eq_true, if_false]

/-! ## Generic arguments -/

section Arguments

open Node

@[simp] theorem argumentLists_functionProduct (trait output : String) (dimension : Nat)
    (slots : List String) :
    (functionProduct trait dimension slots output).argumentLists =
      [slots.map fun slot => someFunction trait (named slot) (named output)] := by
  simp [functionProduct, List.flatMap_map]

theorem argumentLists_opposeProduct (dimension : Nat) :
    (opposeProduct dimension).argumentLists =
      [(slotNames "F" dimension 1).map fun slot => someFunction "Fn" (named slot) (named "T"),
        (slotNames "F" dimension 1).map named] := by
  simp [opposeProduct, List.flatMap_map]

theorem argumentLists_opposeSum (dimension : Nat) :
    (opposeSum dimension).argumentLists =
      [(slotNames "F" dimension 1).map named,
        (slotNames "F" dimension 1).map fun slot => someFunction "Fn" (named slot) (named "T")] ++
      (slotsDown dimension).map fun _ => (slotNames "F" dimension 1).map named := by
  have component (slot : Nat) : (forwarded dimension slot).argumentLists =
      [(slotNames "F" dimension 1).map named] := by
    simp [forwarded, injected]
  have handles : (((slotsDown dimension).filter (· ≠ 1)).map handle).flatMap argumentLists = [] := by
    simp [handle, letIs, shared, List.flatMap_map]
  have body : (splitting dimension).flatMap argumentLists =
      (slotsDown dimension).map fun _ => (slotNames "F" dimension 1).map named := by
    rw [splitting, List.flatMap_cons, List.flatMap_append, handles, List.map_eq_flatMap]
    simp [letIs, Product.value, List.flatMap_map, component]
  have whole : (opposeSum dimension).argumentLists =
      [(slotNames "F" dimension 1).map named,
        (slotNames "F" dimension 1).map fun slot => someFunction "Fn" (named slot) (named "T")] ++
      (splitting dimension).flatMap argumentLists := by
    change (attributed [docLine _] (publicFunction _ (some (parameters _)) [input "f" _] true
      (some _) (splitting dimension))).argumentLists = _
    simp
  rw [whole, body]

theorem argumentLists_measure (dimension : Nat) :
    (measure dimension).argumentLists =
      [(slotNames "T" dimension 1).map named,
        (slotNames "T" dimension 1).map fun slot =>
          someFunction "FnOnce" (named slot) (named "M")] := by
  have plain (slot : Nat) : (call (paren (member (named "measure") (factor slot)))
      [named "value"] false).argumentLists = [] := by
    simp
  simp [measure, argumentLists_byCase plain]

theorem argumentLists_measureUniform (dimension : Nat) :
    (measureUniform dimension).argumentLists = [List.replicate dimension (named "T")] := by
  simp [measureUniform, List.flatMap_map]

/-- Every list of arguments in the code of a duality is in the order of the slots; in the uniform
measure all slots have the same argument. -/
theorem inSlotOrder_duality {products sums : Place} {file : File}
    (h : Duality.file dimension products sums = .ok file) {item : Node} (member : item ∈ file.items)
    {arguments : List Node} (listed : arguments ∈ item.argumentLists) :
    InSlotOrder dimension arguments ∨
      item = measureUniform dimension ∧ arguments = List.replicate dimension (named "T") := by
  obtain ⟨path, -, h⟩ := Outcome.bind_eq_ok_iff.1 h
  obtain ⟨sumPath, -, h⟩ := Outcome.bind_eq_ok_iff.1 h
  obtain ⟨casePath, -, h⟩ := Outcome.bind_eq_ok_iff.1 h
  obtain ⟨paths, -, h⟩ := Outcome.bind_eq_ok_iff.1 h
  cases Outcome.pure_eq_ok_iff.1 h
  have parameters := inSlotOrder_slotNames (by simp : "F" ∈ ["F", "S", "T"]) dimension
  have functions := inSlotOrder_functions (by simp : "F" ∈ ["F", "S", "T"]) dimension "Fn" "T"
  simp only [List.mem_append, List.mem_cons, List.mem_map, List.not_mem_nil, or_false] at member
  obtain ((rfl | rfl | rfl | rfl) | ⟨steps, -, rfl⟩) | rfl | rfl | rfl | rfl := member
  · simp at listed
  · simp at listed
  · simp at listed
  · simp at listed
  · simp at listed
  · rw [argumentLists_opposeProduct, List.mem_pair] at listed
    obtain rfl | rfl := listed
    · exact .inl functions
    · exact .inl parameters
  · rw [argumentLists_opposeSum, List.mem_append, List.mem_pair, List.mem_map] at listed
    obtain (rfl | rfl) | ⟨_, -, rfl⟩ := listed
    · exact .inl parameters
    · exact .inl functions
    · exact .inl parameters
  · rw [argumentLists_measure, List.mem_pair] at listed
    obtain rfl | rfl := listed
    · exact .inl (inSlotOrder_slotNames (by simp) dimension)
    · exact .inl (inSlotOrder_functions (by simp) dimension "FnOnce" "M")
  · rw [argumentLists_measureUniform, List.mem_singleton] at listed
    exact .inr ⟨rfl, listed⟩

end Arguments

/-! ## The files -/

theorem names_duality {products sums : Place} {file : File}
    (h : Duality.file dimension products sums = .ok file) :
    file.routines.map Routine.name = [s!"oppose_product{dimension}", s!"oppose_sum{dimension}",
      s!"measure{dimension}", s!"measure{dimension}_uniform"] := by
  obtain ⟨path, -, h⟩ := Outcome.bind_eq_ok_iff.1 h
  obtain ⟨sumPath, -, h⟩ := Outcome.bind_eq_ok_iff.1 h
  obtain ⟨casePath, -, h⟩ := Outcome.bind_eq_ok_iff.1 h
  obtain ⟨paths, -, h⟩ := Outcome.bind_eq_ok_iff.1 h
  cases Outcome.pure_eq_ok_iff.1 h
  have imports : (paths.map Node.importing).filterMap Node.routine? = [] := by
    rw [List.filterMap_map, List.filterMap_eq_nil_iff]
    exact fun _ _ => rfl
  rw [File.routines, List.filterMap_append, List.filterMap_append, imports]
  exact congrArg₂ List.cons (withoutRawMark_numbered "oppose_product" (by decide) dimension)
    (congrArg₂ List.cons (withoutRawMark_numbered "oppose_sum" (by decide) dimension)
      (congrArg₂ List.cons (withoutRawMark_numbered "measure" (by decide) dimension)
        (congrArg₂ List.cons (withoutRawMark_uniform dimension) rfl)))

/-- The functions of a sum and of its duality bear different names. -/
theorem nodup_names (dimension : Nat) :
    ([s!"oppose_product{dimension}", s!"oppose_sum{dimension}", s!"measure{dimension}",
        s!"measure{dimension}_uniform"] ++
      (s!"sum{dimension}" :: (slotsUp dimension).map (injection dimension))).Nodup := by
  have first : [s!"oppose_product{dimension}", s!"oppose_sum{dimension}", s!"measure{dimension}",
      s!"measure{dimension}_uniform", s!"sum{dimension}"].Nodup := by
    simp only [toString_text, List.nodup_cons, List.mem_cons, List.not_mem_nil, or_false, not_or,
      List.nodup_nil, and_true, not_false_eq_true, ← String.toList_inj, String.toList_append]
    simp
  have apart (slot : Nat) : injection dimension slot ∉ [s!"oppose_product{dimension}",
      s!"oppose_sum{dimension}", s!"measure{dimension}", s!"measure{dimension}_uniform",
      s!"sum{dimension}"] := by
    simp only [List.mem_cons, List.not_mem_nil, or_false, not_or]
    refine ⟨?_, ?_, ?_, ?_, ?_⟩ <;> exact injection_ne (by simp) dimension slot
  have injections : ((slotsUp dimension).map (injection dimension)).Nodup :=
    List.Nodup.map (numbered_injective _) List.nodup_range'
  rw [List.append_cons]
  refine List.nodup_append'.2 ⟨first, injections, ?_⟩
  intro name member inside
  obtain ⟨slot, -, rfl⟩ := List.mem_map.1 inside
  exact apart slot member

theorem atHand_of_files {products sums place : Place} {duality sum : File}
    (dualityFile : Duality.file dimension products sums = .ok duality)
    (sumFile : Sum.file dimension place = .ok sum) (files : world.files = [duality, sum]) :
    AtHand world dimension := by
  have once : ((world.files.flatMap File.routines).map Routine.name).Nodup := by
    have names := nodup_names dimension
    rw [← names_duality dualityFile, ← names_sum sumFile, ← List.map_append] at names
    simpa [files] using names
  have functionIs {file : File} (atHand : file ∈ world.files) {item : Node}
      (member : item ∈ file.items) {name : String}
      (called : item.routine?.map Routine.name = some name) :
      world.function? name = item.routine? :=
    World.function?_of_item once atHand member called
  have here : duality ∈ world.files := by simp [files]
  have there : sum ∈ world.files := by simp [files]
  obtain ⟨path, -, dualityItems⟩ := Outcome.bind_eq_ok_iff.1 dualityFile
  obtain ⟨sumPath, -, dualityItems⟩ := Outcome.bind_eq_ok_iff.1 dualityItems
  obtain ⟨casePath, -, dualityItems⟩ := Outcome.bind_eq_ok_iff.1 dualityItems
  obtain ⟨paths, -, dualityItems⟩ := Outcome.bind_eq_ok_iff.1 dualityItems
  cases Outcome.pure_eq_ok_iff.1 dualityItems
  obtain ⟨markerPath, -, sumItems⟩ := Outcome.bind_eq_ok_iff.1 sumFile
  cases Outcome.pure_eq_ok_iff.1 sumItems
  constructor
  · exact functionIs here (by simp)
      (congrArg some (withoutRawMark_numbered "oppose_product" (by decide) dimension))
  · exact functionIs here (by simp)
      (congrArg some (withoutRawMark_numbered "oppose_sum" (by decide) dimension))
  · exact functionIs here (by simp)
      (congrArg some (withoutRawMark_numbered "measure" (by decide) dimension))
  · exact functionIs here (by simp) (congrArg some (withoutRawMark_uniform dimension))
  · exact functionIs there (by simp) (name_caseFunction dimension)
  · intro slot positive below
    have inside : slot ∈ slotsUp dimension := List.mem_range'_1.2 ⟨positive, by omega⟩
    refine functionIs there (List.mem_append_left _ (List.mem_append_right _ ?_))
      (name_injectionItem dimension slot)
    exact List.mem_map.2 ⟨slot, inside, rfl⟩

/-! ## The duality as a whole -/

/-- What the functions of a duality do to values, and how their code is written. -/
structure Dual (world : World Data) (dimension : Nat) : Prop where
  /-- A function split into a product of functions and put together again acts as before. -/
  functions : ∀ function, ∃ handler back,
    world.invoke s!"oppose_sum{dimension}" [function] = some (productOf dimension handler) ∧
      world.invoke s!"oppose_product{dimension}" [productOf dimension handler] = some back ∧
      ∀ slot, 1 ≤ slot → slot ≤ dimension → ∀ value,
        apply world back [caseOf dimension slot value] =
          apply world function [caseOf dimension slot value]
  /-- A product of functions put together and split again has functions in its slots that act as
  before. -/
  products : ∀ handler, ∃ function back,
    world.invoke s!"oppose_product{dimension}" [productOf dimension handler] = some function ∧
      world.invoke s!"oppose_sum{dimension}" [function] = some (productOf dimension back) ∧
      ∀ slot, 1 ≤ slot → slot ≤ dimension → ∀ value,
        apply world (back slot) [value] = apply world (handler slot) [value]
  /-- A measure applies the function in the slot of the case, as the function that the product
  becomes does. -/
  measures : ∀ handler slot, 1 ≤ slot → slot ≤ dimension → ∀ value,
    world.invoke s!"measure{dimension}"
        [caseOf dimension slot value, productOf dimension handler] =
      apply world (handler slot) [value] ∧
    world.invoke s!"measure{dimension}"
        [caseOf dimension slot value, productOf dimension handler] =
      (world.invoke s!"oppose_product{dimension}" [productOf dimension handler]).bind fun function =>
        apply world function [caseOf dimension slot value]
  /-- The uniform measure matches each case once. -/
  uniform : ∃ routine, world.function? s!"measure{dimension}_uniform" = some routine ∧
    MatchesEachOnce world dimension routine
  /-- The function that splits a function binds every handle before it is used, moves each one once,
  and the shared function into the handle of the first slot alone. -/
  ownership : ∃ routine type, world.function? s!"oppose_sum{dimension}" = some routine ∧
    routine.inputs = [.input "f" type] ∧ ownedAfter ["f"] routine.body = some [] ∧
    routine.body.head? = some (.letIs "f" (.call (.namedAlong ["Rc", "new"]) [.named "f"] false)) ∧
    routine.body.tail.filter (fun statement => statement.uses.contains (.moved, "f")) =
      [.letIs "f1" (.named "f")]
  /-- Every list of arguments has one for each slot, from the highest slot down. -/
  arguments : ∀ file ∈ world.files, ∀ item ∈ file.items, ∀ arguments ∈ item.argumentLists,
    InSlotOrder dimension arguments ∨
      item = measureUniform dimension ∧ arguments = List.replicate dimension (.named "T")

/-- The code of a sum and of its duality converts between functions and products of functions
without loss. -/
theorem dual_of_files (positive : 1 ≤ dimension) {products sums place : Place} {duality sum : File}
    (dualityFile : Duality.file dimension products sums = .ok duality)
    (sumFile : Sum.file dimension place = .ok sum) (files : world.files = [duality, sum]) :
    Dual world dimension := by
  have hand := atHand_of_files dualityFile sumFile files
  constructor
  · intro function
    obtain ⟨handler, splits, splitActs⟩ := exists_opposeSum hand function
    obtain ⟨back, joins, joinActs⟩ := exists_opposeProduct hand handler
    refine ⟨handler, back, splits, joins, fun slot above below value => ?_⟩
    rw [joinActs slot above below, splitActs slot above below]
  · intro handler
    obtain ⟨function, joins, joinActs⟩ := exists_opposeProduct hand handler
    obtain ⟨back, splits, splitActs⟩ := exists_opposeSum hand function
    refine ⟨function, back, joins, splits, fun slot above below value => ?_⟩
    rw [splitActs slot above below, joinActs slot above below]
  · intro handler slot above below value
    have measured := invoke_measure hand handler above below value
    obtain ⟨function, joins, joinActs⟩ := exists_opposeProduct hand handler
    rw [measured, joins, Option.bind_some, joinActs slot above below]
    exact ⟨rfl, rfl⟩
  · exact ⟨_, hand.measureUniform, matchesEachOnce world dimension rfl⟩
  · exact ⟨_, _, hand.opposeSum.trans (routine?_opposeSum dimension), rfl,
      ownedAfter_splitting positive, rfl, moves_splitting dimension⟩
  · intro file atHand item member arguments listed
    rw [files, List.mem_pair] at atHand
    obtain rfl | rfl := atHand
    · exact inSlotOrder_duality dualityFile member listed
    · exact .inl (inSlotOrder_sum sumFile member listed)

/-- The sum of two slots. -/
def twoSummands : { file : File // Sum.file 2 ⟨"src", "", "sums"⟩ = .ok file } :=
  Outcome.value (by decide +kernel)

/-- The duality of two slots. -/
def twoSlots : { file : File //
    Duality.file 2 ⟨"src", "", "products"⟩ ⟨"src", "", "sums"⟩ = .ok file } :=
  Outcome.value (by decide +kernel)

/-- The duality of two slots, where calls of unknown functions are recorded. -/
theorem dual_two : ∃ duality sum,
    Duality.file 2 ⟨"src", "", "products"⟩ ⟨"src", "", "sums"⟩ = .ok duality ∧
      Sum.file 2 ⟨"src", "", "sums"⟩ = .ok sum ∧ 1 ≤ 2 ∧
      Dual (⟨[duality, sum], fun datum values => some (.tuple (.data datum :: values)),
        fun _ => none⟩ : World Nat) 2 := by
  obtain ⟨duality, dualityFile⟩ := twoSlots
  obtain ⟨sum, sumFile⟩ := twoSummands
  exact ⟨duality, sum, dualityFile, sumFile, by decide,
    dual_of_files (by decide) dualityFile sumFile rfl⟩

end Duality

end Slotwise.Family
