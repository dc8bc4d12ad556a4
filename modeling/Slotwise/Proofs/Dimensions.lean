import Slotwise.Proofs.Declared
import Slotwise.Proofs.Slots
/-!
# Products and sums, slot by slot

The declarations and functions of a dimension agree on its slots: the type parameters and the
components or cases, the projections or injections, the maps of single slots, and the functions for
all slots at once. Each function is known by its name, its type says which parameter stands for
which slot, its body mentions each slot exactly as often as it has to, and a call does what its name
promises.

Main statement: the files of a product and of a sum go slot by slot (`slotBySlot_of_files`).
-/

namespace Slotwise.Family

open Code Naming

/-! ## Names -/

@[simp] theorem withoutRawMark_handle (slot : Nat) :
    withoutRawMark s!"f{slot}" = s!"f{slot}" :=
  withoutRawMark_numbered "f" (by decide) slot

theorem handle_ne {name : String} (other : name.toList.head? ≠ some 'f') (slot : Nat) :
    s!"f{slot}" ≠ name :=
  numbered_ne_name (fun same => other same.symm) (by decide) slot

theorem withoutRawMark_injection (dimension slot : Nat) :
    withoutRawMark (injection dimension slot) = injection dimension slot := by
  apply withoutRawMark_of_not_mem
  simp only [injection, toString_text, String.toList_append, List.mem_append, digits_markFree,
    or_false]
  decide

theorem withoutRawMark_projection (dimension slot : Nat) :
    withoutRawMark (projection dimension slot) = projection dimension slot := by
  apply withoutRawMark_of_not_mem
  simp only [projection, toString_text, String.toList_append, List.mem_append, digits_markFree,
    or_false]
  decide

theorem injection_ne {name : String} (other : name.toList.head? ≠ some 'i')
    (dimension slot : Nat) : injection dimension slot ≠ name := by
  rintro rfl
  exact other (by simp [injection])

theorem name_caseFunction (dimension : Nat) :
    (Sum.caseFunction dimension).routine?.map Routine.name = some s!"sum{dimension}" := by
  have name : (Sum.caseFunction dimension).routine?.map Routine.name =
      some (withoutRawMark s!"sum{dimension}") := by
    simp only [Sum.caseFunction, Node.behind, List.isEmpty_cons, Node.publicFunction, Node.isPublic,
      Bool.false_eq_true, if_false, Node.routine?, Option.map_some]
  rw [name]
  exact congrArg some (withoutRawMark_numbered "sum" (by decide) dimension)

theorem name_injectionItem (dimension slot : Nat) :
    (Sum.injectionItem dimension slot).routine?.map Routine.name =
      some (injection dimension slot) :=
  congrArg some (withoutRawMark_injection dimension slot)

theorem name_projectionItem (dimension slot : Nat) :
    (Product.projectionItem dimension slot).routine?.map Routine.name =
      some (projection dimension slot) :=
  congrArg some (withoutRawMark_projection dimension slot)

theorem names_sum {dimension : Nat} {place : Place} {file : File}
    (h : Sum.file dimension place = .ok file) :
    file.routines.map Routine.name =
      s!"sum{dimension}" :: (slotsUp dimension).map (injection dimension) := by
  obtain ⟨path, -, h⟩ := Outcome.bind_eq_ok_iff.1 h
  cases Outcome.pure_eq_ok_iff.1 h
  have injections : ((slotsUp dimension).map (Sum.injectionItem dimension)).filterMap
      (fun item => item.routine?.map Routine.name) =
        (slotsUp dimension).map (injection dimension) :=
    filterMap_map_some (g := fun item : Node => item.routine?.map Routine.name)
      (name_injectionItem dimension) _
  rw [File.routines, List.map_filterMap, List.filterMap_append, List.filterMap_append, injections]
  simp only [List.filterMap_cons, name_caseFunction]
  exact List.append_nil _

theorem names_product {dimension : Nat} {place : Place} {file : File}
    (h : Product.file dimension place = .ok file) :
    file.routines.map Routine.name = s!"product{dimension}" :: s!"map_product{dimension}" ::
      (slotsUp dimension).map (projection dimension) := by
  obtain ⟨path, -, h⟩ := Outcome.bind_eq_ok_iff.1 h
  cases Outcome.pure_eq_ok_iff.1 h
  have projections : ((slotsUp dimension).map (Product.projectionItem dimension)).filterMap
      (fun item => item.routine?.map Routine.name) =
      (slotsUp dimension).map (projection dimension) :=
    filterMap_map_some (g := fun item : Node => item.routine?.map Routine.name)
      (name_projectionItem dimension) _
  rw [File.routines, List.map_filterMap, List.filterMap_append, List.filterMap_append, projections]
  refine (List.append_nil _).trans ?_
  exact congrArg₂ List.cons (withoutRawMark_numbered "product" (by decide) dimension)
    (congrArg₂ List.cons (withoutRawMark_numbered "map_product" (by decide) dimension) rfl)

theorem mem_slotsUp {dimension slot : Nat} :
    slot ∈ slotsUp dimension ↔ 1 ≤ slot ∧ slot ≤ dimension :=
  List.mem_reverse.symm.trans mem_slotsDown

theorem nodup_slotsUp (dimension : Nat) : (slotsUp dimension).Nodup :=
  List.nodup_range'

theorem nodup_names_sum (dimension : Nat) :
    (s!"sum{dimension}" :: (slotsUp dimension).map (injection dimension)).Nodup := by
  rw [List.nodup_cons]
  refine ⟨fun member => ?_, (nodup_slotsUp dimension).map (numbered_injective _)⟩
  obtain ⟨slot, -, same⟩ := List.mem_map.1 member
  exact injection_ne (by simp) dimension slot same

theorem nodup_names_product (dimension : Nat) :
    (s!"product{dimension}" :: s!"map_product{dimension}" ::
      (slotsUp dimension).map (projection dimension)).Nodup := by
  have different : s!"product{dimension}" ≠ s!"map_product{dimension}" :=
    numbered_ne (by decide) (by decide) dimension dimension
  have apart (slot : Nat) : projection dimension slot ≠ s!"product{dimension}" := by
    rw [projection, ← String.toList_inj.ne]
    simp
  have apart' (slot : Nat) : projection dimension slot ≠ s!"map_product{dimension}" := by
    rw [projection, ← String.toList_inj.ne]
    simp
  rw [List.nodup_cons, List.nodup_cons, List.mem_cons, not_or]
  refine ⟨⟨different, ?_⟩, ?_, (nodup_slotsUp dimension).map (numbered_injective _)⟩
  · rw [List.mem_map]
    rintro ⟨slot, -, same⟩
    exact apart slot same
  · rw [List.mem_map]
    rintro ⟨slot, -, same⟩
    exact apart' slot same

theorem definitionsOn_methodsOf (generics : Option Node) {name : String}
    (plain : withoutRawMark name = name) (arguments : List String) (items : List Node) :
    (Node.methodsOf generics (.appliedTo name arguments) items).definitionsOn name =
      items.filterMap Node.definition? := by
  have subject : (Node.appliedTo name arguments).names? = some [name] :=
    congrArg (fun name => some [name]) plain
  rw [Node.methodsOf, Node.definitionsOn, subject, if_pos rfl]

theorem definitionsOn_product {dimension : Nat} {place : Place} {file : File}
    (h : Product.file dimension place = .ok file) :
    file.definitionsOn (productType dimension) =
      ((slotsDown dimension).map (Product.mapItem dimension) ++
        [Product.asRefs dimension]).filterMap Node.definition? := by
  obtain ⟨path, -, h⟩ := Outcome.bind_eq_ok_iff.1 h
  cases Outcome.pure_eq_ok_iff.1 h
  have projections : ((slotsUp dimension).map (Product.projectionItem dimension)).flatMap
      (Node.definitionsOn (productType dimension)) = [] := by
    rw [List.flatMap_map, List.flatMap_eq_nil_iff]
    exact fun _ _ => rfl
  rw [File.definitionsOn, List.flatMap_append, List.flatMap_append, projections,
    List.flatMap_singleton, Product.type,
    definitionsOn_methodsOf _ (withoutRawMark_productType dimension)]
  rfl

theorem definitionsOn_sum {dimension : Nat} {place : Place} {file : File}
    (h : Sum.file dimension place = .ok file) :
    file.definitionsOn (sumType dimension) =
      ((slotsDown dimension).map (Sum.mapItem dimension)).filterMap Node.definition? := by
  obtain ⟨path, -, h⟩ := Outcome.bind_eq_ok_iff.1 h
  cases Outcome.pure_eq_ok_iff.1 h
  have injections : ((slotsUp dimension).map (Sum.injectionItem dimension)).flatMap
      (Node.definitionsOn (sumType dimension)) = [] := by
    rw [List.flatMap_map, List.flatMap_eq_nil_iff]
    exact fun _ _ => rfl
  rw [File.definitionsOn, List.flatMap_append, List.flatMap_append, injections,
    List.flatMap_singleton, Sum.type,
    definitionsOn_methodsOf _ (withoutRawMark_sumType dimension)]
  rfl

theorem names_mapItems (item : Nat → Node) (dimension : Nat)
    (named : ∀ slot, (item slot).definition?.map (·.routine.name) = some (mapSlot slot)) :
    (((slotsDown dimension).map item).filterMap Node.definition?).map (·.routine.name) =
      (slotsDown dimension).map mapSlot := by
  rw [List.map_filterMap]
  exact filterMap_map_some (g := fun item : Node => item.definition?.map (·.routine.name)) named _

theorem nodup_methods_product {dimension : Nat} {place : Place} {file : File}
    (h : Product.file dimension place = .ok file) :
    ((file.definitionsOn (productType dimension)).map (·.routine.name)).Nodup := by
  have names : (file.definitionsOn (productType dimension)).map (·.routine.name) =
      (slotsDown dimension).map mapSlot ++ ["as_refs"] := by
    rw [definitionsOn_product h, List.filterMap_append, List.map_append,
      names_mapItems (Product.mapItem dimension) dimension
        fun slot => congrArg some (withoutRawMark_mapSlot slot)]
    rfl
  rw [names, List.nodup_append]
  refine ⟨(nodup_slotsDown dimension).map mapSlot_injective, by simp, ?_⟩
  rintro _ member other single rfl
  obtain ⟨slot, -, same⟩ := List.mem_map.1 member
  rw [List.mem_singleton.1 single] at same
  exact numbered_ne_name (by decide) (by decide) slot same

theorem nodup_methods_sum {dimension : Nat} {place : Place} {file : File}
    (h : Sum.file dimension place = .ok file) :
    ((file.definitionsOn (sumType dimension)).map (·.routine.name)).Nodup := by
  rw [definitionsOn_sum h,
    names_mapItems (Sum.mapItem dimension) dimension
      fun slot => congrArg some (withoutRawMark_mapSlot slot)]
  exact (nodup_slotsDown dimension).map mapSlot_injective

/-! ## Types and bodies -/

/-- A generic type with one argument for each slot. -/
def Fills (name : String) (dimension : Nat) (argument : Nat → Node) (type : Node) : Prop :=
  ∃ arguments, type.applied? = some (name, arguments) ∧ Slotted dimension arguments argument

/-- A routine makes one product, with one entry for each component. -/
def Makes (dimension : Nat) (content : Nat → Node) (routine : Routine) : Prop :=
  ∃ items, routine.collect Node.literal? = [(some [productType dimension], items)] ∧
    Slotted dimension items fun slot => (some (factor slot), content slot)

/-- A routine of `owner` makes one choice, with one arm for each case, where this is found. -/
def Chooses {α : Type} (dimension : Nat) (owner : String) (f : Node → Option α)
    (found : Nat → List α) (routine : Routine) : Prop :=
  ∃ arms, routine.collect Node.arms? = [arms] ∧
    Slotted dimension (arms.map (Node.armCase? owner))
      (fun slot => some [sumType dimension, summand slot]) ∧
    Slotted dimension (arms.map (Node.collect f)) found

variable {dimension : Nat}

theorem fills_applied {name : String} (plain : withoutRawMark name = name)
    (argument : Nat → Node) :
    Fills name dimension argument (.applied name ((slotsDown dimension).map argument)) := by
  refine ⟨_, ?_, slotted_map dimension argument⟩
  rw [Node.applied?_applied, plain]

theorem fills_slotNames {name : String} (plain : withoutRawMark name = name) (base : String) :
    Fills name dimension (fun slot => .named (base ++ toString slot))
      (.appliedTo name (slotNames base dimension 1)) := by
  rw [Node.appliedTo, slotNames_eq, List.map_map]
  exact fills_applied plain _

theorem fills_slotNamesWith {name : String} (plain : withoutRawMark name = name)
    (base : String) (target : Nat) (other : String) :
    Fills name dimension
      (fun slot => .named (if slot = target then other ++ toString slot else base ++ toString slot))
      (.appliedTo name (slotNamesWith base dimension target other)) := by
  have entries : (fun slot => Node.named
      (if slot = target then other ++ toString slot else base ++ toString slot)) =
      Node.named ∘ fun slot => (if slot = target then other else base) ++ toString slot := by
    funext slot
    rw [Function.comp_apply]
    split <;> rfl
  rw [Node.appliedTo, slotNamesWith, List.map_map, entries]
  exact fills_applied plain _

theorem makes_value {content : Nat → Node} {routine : Routine}
    (only : routine.collect Node.literal? = (Product.value dimension content).collect Node.literal?)
    (plain : ∀ slot, (content slot).collect Node.literal? = []) :
    Makes dimension content routine := by
  refine ⟨_, ?_, slotted_map dimension _⟩
  rw [only, Node.collect_value Node.reader_literal?]
  simp [plain, Product.value, Node.literal?]

theorem slotted_armCases {owner spelled : String} (resolved : ∀ slot,
      Node.resolve owner [withoutRawMark spelled, summand slot] =
        [sumType dimension, summand slot]) (payload : String) (body : Nat → Node) :
    Slotted dimension
      (((slotsDown dimension).map fun slot =>
        Node.arm (Sum.inCase spelled slot (.binding payload)) none (body slot) true).map
          (Node.armCase? owner))
      (fun slot => some [sumType dimension, summand slot]) := by
  have each (slot : Nat) : (Node.arm (Sum.inCase spelled slot (.binding payload)) none (body slot)
      true).armCase? owner = some [sumType dimension, summand slot] := by
    rw [← resolved slot]
    simp [Sum.inCase, Node.armCase?]
  simp only [List.map_map, Function.comp_def, each]
  exact slotted_map dimension _

theorem chooses_byCase {α : Type} {f : Node → Option α} (reader : Node.Reader f)
    {routine : Routine} {owner subject spelled payload : String} {body : Nat → Node}
    {found : Nat → List α}
    (only : routine.collect Node.arms? =
      (Sum.byCase subject spelled dimension payload body).collect Node.arms?)
    (resolved : ∀ slot, Node.resolve owner [withoutRawMark spelled, summand slot] =
      [sumType dimension, summand slot])
    (plain : ∀ slot, (body slot).collect Node.arms? = [])
    (finds : ∀ slot, (body slot).collect f = found slot) :
    Chooses dimension owner f found routine := by
  refine ⟨_, ?_, slotted_armCases resolved payload body, ?_⟩
  · rw [only, Node.collect_byCase Node.reader_arms?]
    simp [plain, Sum.byCase, Node.arms?]
  · have each (slot : Nat) : (Node.arm (Sum.inCase spelled slot (.binding payload)) none (body slot)
        true).collect f = found slot := by
      simp [reader.arm, Node.collect_inCase reader, Node.collect_binding reader, finds]
    simp only [List.map_map, Function.comp_def, each]
    exact slotted_map dimension _

/-! ## Products -/

namespace Product

/-- A function gives the projection onto the component of a slot. -/
structure Projects (dimension slot : Nat) (definition : Definition) : Prop where
  /-- The projection goes from the product to the type of the slot. -/
  output : ∃ product, definition.output = some (.someFunction "Fn" product (.named s!"F{slot}")) ∧
    Fills (productType dimension) dimension (fun i => .named s!"F{i}") product
  /-- The component of the slot is read, and no other one. -/
  reads : definition.routine.collect Node.read? = [("product", factor slot)]
  /-- The projection of a product is its component. -/
  projects : ∀ {Data : Type} (world : World Data), ∃ function,
    call world "" definition.routine [] = some function ∧
      ∀ value, apply world function [productOf dimension value] = some (value slot)

/-- A method maps the component of a slot. -/
structure MapsSlot (dimension slot : Nat) (definition : Definition) : Prop where
  /-- The function at work on the component goes from the type of the slot to another one. -/
  inputs : definition.routine.inputs =
    [.self, .input "f" (.someFunction "FnOnce" (.named s!"F{slot}") (.named s!"G{slot}"))]
  /-- That other type takes the place of the slot, and all other types keep theirs. -/
  output : ∃ product, definition.output = some product ∧
    Fills (productType dimension) dimension
      (fun i => .named (if i = slot then s!"G{i}" else s!"F{i}")) product
  /-- The result has the mapped component in the slot and all other components as they are. -/
  literal : Makes dimension (fun i =>
    if i = slot then .call (.named "f") [.member .self (factor i)] false
    else .member .self (factor i)) definition.routine
  /-- Each component is read once. -/
  reads : Slotted dimension (definition.routine.collect Node.read?) fun i => ("self", factor i)
  /-- The function is called once. -/
  calls : definition.routine.collect Node.called? = ["f"]
  /-- What the function makes of the component comes in its place. -/
  maps : ∀ {Data : Type} (world : World Data) (value : Nat → Value Data) (edit result : Value Data),
    apply world edit [value slot] = some result →
      call world (productType dimension) definition.routine [productOf dimension value, edit] =
        some (productOf dimension (Function.update value slot result))

/-- A function maps all components. -/
structure MapsAll (dimension : Nat) (definition : Definition) : Prop where
  /-- The function for a slot goes from the source of the slot to its target. -/
  inputs : Slotted dimension definition.routine.inputs fun i =>
    .input s!"f{i}" (.someFunction "Fn" (.named s!"S{i}") (.named s!"T{i}"))
  /-- The result goes from the product of sources to the product of targets. -/
  output : ∃ source target, definition.output = some (.someFunction "Fn" source target) ∧
    Fills (productType dimension) dimension (fun i => .named s!"S{i}") source ∧
    Fills (productType dimension) dimension (fun i => .named s!"T{i}") target
  /-- Each component goes through the function for its slot. -/
  literal : Makes dimension (fun i =>
    .call (.named s!"f{i}") [.member (.named "product") (factor i)] false) definition.routine
  /-- Each component is read once. -/
  reads : Slotted dimension (definition.routine.collect Node.read?) fun i => ("product", factor i)
  /-- Each function is called once. -/
  calls : Slotted dimension (definition.routine.collect Node.called?) fun i => s!"f{i}"
  /-- What the functions make of the components comes in their places. -/
  maps : ∀ {Data : Type} (world : World Data) (edit : Nat → Value Data), ∃ function,
    call world "" definition.routine ((slotsDown dimension).map edit) = some function ∧
      ∀ value result : Nat → Value Data,
        (∀ i, 1 ≤ i → i ≤ dimension → apply world (edit i) [value i] = some (result i)) →
          apply world function [productOf dimension value] = some (productOf dimension result)

/-- A method borrows all components. -/
structure Borrows (dimension : Nat) (definition : Definition) : Prop where
  /-- The product is borrowed, and there are no other inputs. -/
  inputs : definition.routine.inputs = [.shared .self]
  /-- The result has a reference to the type of each slot. -/
  output : ∃ product, definition.output = some product ∧
    Fills (productType dimension) dimension (fun i => .shared (.named s!"F{i}")) product
  /-- Each component is borrowed as it is. -/
  literal : Makes dimension (fun i => .shared (.member .self (factor i))) definition.routine
  /-- Each component is read once. -/
  reads : Slotted dimension (definition.routine.collect Node.read?) fun i => ("self", factor i)
  /-- The references are to the components in the same slots. -/
  borrows : ∀ {Data : Type} (world : World Data) (value : Nat → Value Data),
    run world (productType dimension) [("self", productOf dimension value)]
      definition.routine.body = some (productOf dimension value)

theorem plain (dimension : Nat) : withoutRawMark (productType dimension) = productType dimension :=
  withoutRawMark_productType dimension

theorem projects_projectionItem {slot : Nat} (positive : 1 ≤ slot) (below : slot ≤ dimension)
    {definition : Definition}
    (defines : (projectionItem dimension slot).definition? = some definition) :
    Projects dimension slot definition := by
  cases defines
  refine ⟨⟨_, rfl, fills_slotNames (plain dimension) "F"⟩, ?_, fun world => ?_⟩
  · rw [Routine.collect_mk, type, Node.collect_functionOf Node.reader_read?]
    simp [Node.read?, Node.named]
  · refine ⟨.closure "" [.input "product" (type dimension (slotNames "F" dimension 1))]
      (.member (.named "product") (factor slot)) [], ?_, fun value => ?_⟩
    · rw [call_routine bindInputs_nil]
      simp only [List.any_nil, Bool.false_eq_true, if_false, run_singleton, eval_closure]
    · have bound : bindInputs "" [.input "product" (type dimension (slotNames "F" dimension 1))]
          [productOf dimension value] = some [("product", productOf dimension value)] := by simp
      rw [apply_closure bound]
      exact eval_factor (by simp) positive below

theorem mapsSlot_mapItem {slot : Nat} (positive : 1 ≤ slot) (below : slot ≤ dimension)
    {definition : Definition} (defines : (mapItem dimension slot).definition? = some definition) :
    MapsSlot dimension slot definition := by
  cases defines
  -- the slot at work and the others differ in the call alone, so what is found in a component is
  -- said once for both
  let content (i : Nat) : Node :=
    if i = slot then .call (.named "f") [.member .self (factor i)] false
    else .member .self (factor i)
  have literal (i : Nat) : (content i).collect Node.literal? = [] := by
    unfold content
    split <;> simp [Node.literal?, Node.self, Node.named]
  have read (i : Nat) : (content i).collect Node.read? = [("self", factor i)] := by
    unfold content
    split <;> simp [Node.read?, Node.self, Node.named]
  have called (i : Nat) : (content i).collect Node.called? = if i = slot then ["f"] else [] := by
    unfold content
    split <;> simp [Node.called?, Node.self, Node.named]
  refine ⟨rfl, ⟨_, rfl, fills_slotNamesWith (plain dimension) "F" slot "G"⟩,
    makes_value (Routine.collect_mk _ _ _ _ _) literal, ?_, ?_, ?_⟩
  · rw [Routine.collect_mk, Node.collect_value Node.reader_read?]
    exact slotted_flatMap read
  · rw [Routine.collect_mk, Node.collect_value Node.reader_called?,
      ← flatMap_slotsDown positive below]
    exact List.flatMap_congr fun i _ => called i
  · intro Data world value edit result mapped
    have inputs : bindInputs (productType dimension)
        [.self, .input "f" (.someFunction "FnOnce" (.named s!"F{slot}") (.named s!"G{slot}"))]
        [productOf dimension value, edit] =
        some [("self", productOf dimension value), ("f", edit)] := by
      simp
    have component {i : Nat} (positive : 1 ≤ i) (below : i ≤ dimension) :
        eval world (productType dimension) [("self", productOf dimension value), ("f", edit)]
          (.member .self (factor i)) = some (value i) :=
      eval_factor (by simp) positive below
    rw [call_routine inputs]
    simp only [List.any_nil, Bool.false_eq_true, if_false, run_singleton]
    refine eval_productLiteral (fun i positive below => ?_) true
    split
    · next same =>
      subst same
      rw [eval_call_variable (by rfl)]
      simpa [component positive below, List.lookup_cons] using mapped
    · next other => rw [component positive below, Function.update_of_ne other]

theorem mapsAll_mapAll {definition : Definition}
    (defines : (mapAll dimension).definition? = some definition) :
    MapsAll dimension definition := by
  cases defines
  let content (i : Nat) : Node :=
    .call (.named s!"f{i}") [.member (.named "product") (factor i)] false
  have literal (i : Nat) : (content i).collect Node.literal? = [] := by
    simp [content, Node.literal?, Node.named]
  have read (i : Nat) : (content i).collect Node.read? = [("product", factor i)] := by
    simp [content, Node.read?, Node.named]
  have called (i : Nat) : (content i).collect Node.called? = [s!"f{i}"] := by
    have plain : withoutRawMark ("f" ++ i.repr) = "f" ++ i.repr := withoutRawMark_handle i
    simp [content, Node.called?, Node.named, plain]
  refine ⟨slotted_map dimension _, ⟨_, _, rfl, fills_slotNames (plain dimension) "S",
    fills_slotNames (plain dimension) "T"⟩, ?_, ?_, ?_, ?_⟩
  · refine makes_value ?_ literal
    rw [Routine.collect_mk, type, Node.collect_functionOf Node.reader_literal?]
  · rw [Routine.collect_mk, type, Node.collect_functionOf Node.reader_read?,
      Node.collect_value Node.reader_read?]
    exact slotted_flatMap read
  · rw [Routine.collect_mk, type, Node.collect_functionOf Node.reader_called?,
      Node.collect_value Node.reader_called?]
    exact slotted_flatMap called
  · intro Data world edit
    let scope : Variables Data := (slotsDown dimension).map fun i => (s!"f{i}", edit i)
    have inputs : bindInputs "" ((slotsDown dimension).map fun i =>
        .input s!"f{i}" (.someFunction "Fn" (.named s!"S{i}") (.named s!"T{i}")))
        ((slotsDown dimension).map edit) = some scope := by
      rw [bindInputs_map]
      simp only [withoutRawMark_handle, scope]
    refine ⟨.closure "" [.input "product" (type dimension (slotNames "S" dimension 1))]
      (value dimension content) scope, ?_, fun values results mapped => ?_⟩
    · rw [call_routine inputs]
      simp only [List.any_nil, Bool.false_eq_true, if_false, run_singleton, eval_closure]
      rfl
    · have bound : bindInputs "" [.input "product" (type dimension (slotNames "S" dimension 1))]
          [productOf dimension values] = some [("product", productOf dimension values)] := by simp
      rw [apply_closure bound]
      refine eval_productLiteral (fun i positive below => ?_) true
      -- the product is bound last, under a name that no handle has, so it hides no function
      have found : (("product", productOf dimension values) :: scope).lookup
          (withoutRawMark s!"f{i}") = some (edit i) := by
        rw [withoutRawMark_handle, lookup_cons_of_ne (handle_ne (by decide) i)]
        exact lookup_numbered (nodup_slotsDown dimension) edit (mem_slotsDown.2 ⟨positive, below⟩)
      have component : eval world "" (("product", productOf dimension values) :: scope)
          (.member (.named "product") (factor i)) = some (values i) :=
        eval_factor (by simp) positive below
      rw [List.singleton_append, eval_call_variable (by rw [found]; rfl), found]
      simpa [component] using mapped i positive below

theorem borrows_asRefs {definition : Definition}
    (defines : (asRefs dimension).definition? = some definition) :
    Borrows dimension definition := by
  cases defines
  have literal (i : Nat) : (Node.shared (.member .self (factor i))).collect Node.literal? =
      [] := by
    simp [Node.literal?, Node.shared, Node.self, Node.named]
  have read (i : Nat) : (Node.shared (.member .self (factor i))).collect Node.read? =
      [("self", factor i)] := by
    simp [Node.read?, Node.shared, Node.self, Node.named]
  refine ⟨rfl, ⟨_, rfl, ?_⟩, makes_value (Routine.collect_mk _ _ _ _ _) literal, ?_, ?_⟩
  · rw [slotNames_eq, List.map_map]
    exact fills_applied (plain dimension) _
  · rw [Routine.collect_mk, Node.collect_value Node.reader_read?]
    exact slotted_flatMap read
  · intro Data world value
    rw [run_singleton]
    refine eval_productLiteral (fun i positive below => ?_) true
    rw [eval_shared]
    exact eval_factor (by simp) positive below

/-- The file of a product agrees on its slots. -/
structure SlotBySlot (dimension : Nat) (file : File) : Prop where
  /-- One type is declared, with a parameter and a component for each slot. -/
  declared : ∃ declared, file.declared = [declared] ∧ declared.name = productType dimension ∧
    Slotted dimension declared.parameters (fun i => s!"F{i}") ∧
    Slotted dimension declared.parts fun i => (factor i, .named s!"F{i}")
  /-- There is one projection onto each slot. -/
  projections : ∀ slot, 1 ≤ slot → slot ≤ dimension → ∃ definition,
    Only file.definitions (projection dimension slot) definition ∧
      Projects dimension slot definition
  /-- There is one method that maps each slot. -/
  maps : ∀ slot, 1 ≤ slot → slot ≤ dimension → ∃ definition,
    Only (file.definitionsOn (productType dimension)) (mapSlot slot) definition ∧
      MapsSlot dimension slot definition
  /-- There is one function that maps all slots. -/
  mapAll : ∃ definition, Only file.definitions s!"map_product{dimension}" definition ∧
    MapsAll dimension definition
  /-- There is one method that borrows all slots. -/
  asRefs : ∃ definition, Only (file.definitionsOn (productType dimension)) "as_refs" definition ∧
    Borrows dimension definition

theorem items_of_file {place : Place} {file : File}
    (h : Product.file dimension place = .ok file) :
    ∃ path trait block, file.items =
      [.importing path, struct dimension, trait, maker dimension, mapAll dimension] ++
        (slotsUp dimension).map (projectionItem dimension) ++ [block] := by
  obtain ⟨path, -, h⟩ := Outcome.bind_eq_ok_iff.1 h
  cases Outcome.pure_eq_ok_iff.1 h
  exact ⟨path, _, _, rfl⟩

theorem slotBySlot_of_file {place : Place} {file : File}
    (h : Product.file dimension place = .ok file) : SlotBySlot dimension file := by
  have once : (file.routines.map Routine.name).Nodup := by
    rw [names_product h]
    exact nodup_names_product dimension
  have methodsOnce := nodup_methods_product h
  obtain ⟨path, trait, block, items⟩ := items_of_file h
  constructor
  case declared =>
    refine ⟨_, Product.declared h, rfl, ?_, slotted_map dimension _⟩
    rw [Declared.ofSlots, slotNames_eq]
    exact slotted_map dimension _
  case projections =>
    intro slot positive below
    have member : projectionItem dimension slot ∈ file.items := by
      rw [items]
      exact List.mem_append_left _ (List.mem_append_right _
        (List.mem_map.2 ⟨slot, mem_slotsUp.2 ⟨positive, below⟩, rfl⟩))
    exact ⟨_, only_of_item once member rfl (withoutRawMark_projection dimension slot),
      projects_projectionItem positive below rfl⟩
  case maps =>
    intro slot positive below
    refine ⟨_, only_of_mem methodsOnce ?_ (withoutRawMark_mapSlot slot),
      mapsSlot_mapItem positive below rfl⟩
    rw [definitionsOn_product h]
    exact List.mem_filterMap.2 ⟨_, List.mem_append_left _ (List.mem_map.2
      ⟨slot, mem_slotsDown.2 ⟨positive, below⟩, rfl⟩), rfl⟩
  case mapAll =>
    have member : mapAll dimension ∈ file.items := by simp [items]
    exact ⟨_, only_of_item once member rfl
      (withoutRawMark_numbered "map_product" (by decide) dimension), mapsAll_mapAll rfl⟩
  case asRefs =>
    have name : withoutRawMark "as_refs" = "as_refs" := withoutRawMark_of_not_mem (by decide)
    refine ⟨_, only_of_mem methodsOnce ?_ name, borrows_asRefs rfl⟩
    rw [definitionsOn_product h]
    exact List.mem_filterMap.2 ⟨_, List.mem_append_right _ (List.mem_singleton_self _), rfl⟩

end Product

/-! ## Sums -/

namespace Sum

/-- A function gives the injection into the case of a slot. -/
structure Injects (dimension slot : Nat) (definition : Definition) : Prop where
  /-- The injection goes from the type of the slot to the sum. -/
  output : ∃ sum, definition.output = some (.someFunction "Fn" (.named s!"S{slot}") sum) ∧
    Fills (sumType dimension) dimension (fun i => .named s!"S{i}") sum
  /-- The injection of a value is the case with that value. -/
  injects : ∀ {Data : Type} (world : World Data), ∃ function,
    call world "" definition.routine [] = some function ∧
      ∀ value, apply world function [value] = some (caseOf dimension slot value)

/-- A function handles all cases by one function for each. -/
structure HandlesAll (dimension : Nat) (definition : Definition) : Prop where
  /-- The function for a slot goes from the type of the slot to the common result. -/
  inputs : Slotted dimension definition.routine.inputs fun i =>
    .input s!"f{i}" (.someFunction "Fn" (.named s!"S{i}") (.named "T"))
  /-- The result goes from the sum to the common result. -/
  output : ∃ sum, definition.output = some (.someFunction "Fn" sum (.named "T")) ∧
    Fills (sumType dimension) dimension (fun i => .named s!"S{i}") sum
  /-- There is one arm for each case, which calls the function for that case. -/
  arms : Chooses dimension "" Node.called? (fun i => [s!"f{i}"]) definition.routine
  /-- What is in a case goes to the function for that case. -/
  handles : ∀ {Data : Type} (world : World Data) (handler : Nat → Value Data), ∃ function,
    call world "" definition.routine ((slotsDown dimension).map handler) = some function ∧
      ∀ slot, 1 ≤ slot → slot ≤ dimension → ∀ value,
        apply world function [caseOf dimension slot value] = apply world (handler slot) [value]

/-- A method maps the case of a slot. -/
structure MapsCase (dimension slot : Nat) (definition : Definition) : Prop where
  /-- The function at work on the case goes from the type of the slot to another one. -/
  inputs : definition.routine.inputs =
    [.self, .input "f" (.someFunction "FnOnce" (.named s!"S{slot}") (.named s!"T{slot}"))]
  /-- That other type takes the place of the slot, and all other types keep theirs. -/
  output : ∃ sum, definition.output = some sum ∧
    Fills (sumType dimension) dimension
      (fun i => .named (if i = slot then s!"T{i}" else s!"S{i}")) sum
  /-- There is one arm for each case, and only the arm for the slot calls the function. -/
  arms : Chooses dimension (sumType dimension) Node.called?
    (fun i => if i = slot then ["f"] else []) definition.routine
  /-- What the function makes of the value in the case comes in its place. -/
  maps : ∀ {Data : Type} (world : World Data) (edit value : Value Data),
    call world (sumType dimension) definition.routine [caseOf dimension slot value, edit] =
      (apply world edit [value]).map (caseOf dimension slot)
  /-- All other cases are carried over. -/
  passes : ∀ {Data : Type} (world : World Data) (edit value : Value Data) (other : Nat),
    1 ≤ other → other ≤ dimension → other ≠ slot →
      call world (sumType dimension) definition.routine [caseOf dimension other value, edit] =
        some (caseOf dimension other value)

theorem plain (dimension : Nat) : withoutRawMark (sumType dimension) = sumType dimension :=
  withoutRawMark_sumType dimension

theorem call_injectionItem {Data : Type} (world : World Data) {slot : Nat} {routine : Routine}
    (routineIs : (injectionItem dimension slot).routine? = some routine) : ∃ function,
      call world "" routine [] = some function ∧
        ∀ value, apply world function [value] = some (caseOf dimension slot value) := by
  cases routineIs
  refine ⟨.closure "" [.input "value" (.named s!"S{slot}")]
    (.block [] [inCase (sumType dimension) slot (.named "value")]) [], ?_, fun value => ?_⟩
  · rw [call_routine bindInputs_nil]
    simp only [List.any_nil, Bool.false_eq_true, if_false, run_singleton, eval_closure]
  · have bound : bindInputs "" [.input "value" (.named s!"S{slot}")] [value] =
        some [("value", value)] := by simp
    rw [apply_closure bound, eval_block, run_singleton, eval_inCase]
    simp

theorem call_caseFunction {Data : Type} (world : World Data) {routine : Routine}
    (routineIs : (caseFunction dimension).routine? = some routine)
    (handler : Nat → Value Data) : ∃ function,
      call world "" routine ((slotsDown dimension).map handler) = some function ∧
        ∀ slot, 1 ≤ slot → slot ≤ dimension → ∀ value,
          apply world function [caseOf dimension slot value] =
            apply world (handler slot) [value] := by
  cases routineIs
  have inputs : bindInputs "" ((slotsDown dimension).map fun slot =>
      .input s!"f{slot}" (.someFunction "Fn" (.named s!"S{slot}") (.named "T")))
      ((slotsDown dimension).map handler) =
      some ((slotsDown dimension).map fun slot => (s!"f{slot}", handler slot)) := by
    rw [bindInputs_map]
    simp only [withoutRawMark_handle]
  refine ⟨.closure "" [.input "sum" (type dimension (slotNames "S" dimension 1))]
    (byCase "sum" (sumType dimension) dimension "value" fun slot =>
      .call (.named s!"f{slot}") [.named "value"] false)
    ((slotsDown dimension).map fun slot => (s!"f{slot}", handler slot)), ?_, ?_⟩
  · rw [call_routine inputs]
    simp only [List.any_nil, Bool.false_eq_true, if_false, run_singleton, eval_closure]
  · intro slot positive below value
    have bound : bindInputs "" [.input "sum" (type dimension (slotNames "S" dimension 1))]
        [caseOf dimension slot value] = some [("sum", caseOf dimension slot value)] := by simp
    have subject : (("sum", caseOf dimension slot value) :: (slotsDown dimension).map fun slot =>
        (s!"f{slot}", handler slot)).lookup (withoutRawMark "sum") =
        some (caseOf dimension slot value) := by simp
    -- neither what the arm binds nor the sum hides a function
    have found : (("value", value) :: ("sum", caseOf dimension slot value) ::
        (slotsDown dimension).map fun slot => (s!"f{slot}", handler slot)).lookup
        (withoutRawMark s!"f{slot}") = some (handler slot) := by
      rw [withoutRawMark_handle, lookup_cons_of_ne (handle_ne (by decide) slot),
        lookup_cons_of_ne (handle_ne (by decide) slot)]
      exact lookup_numbered (nodup_slotsDown dimension) handler
        (mem_slotsDown.2 ⟨positive, below⟩)
    rw [apply_closure bound, List.singleton_append, eval_byCase positive below subject,
      withoutRawMark_of_not_mem (by decide), eval_call_variable (by rw [found]; rfl), found]
    simp

theorem injects_injectionItem {slot : Nat} {definition : Definition}
    (defines : (injectionItem dimension slot).definition? = some definition) :
    Injects dimension slot definition := by
  cases defines
  exact ⟨⟨_, rfl, fills_slotNames (plain dimension) "S"⟩, fun world =>
    call_injectionItem world rfl⟩

theorem handlesAll_caseFunction {definition : Definition}
    (defines : (caseFunction dimension).definition? = some definition) :
    HandlesAll dimension definition := by
  cases defines
  refine ⟨slotted_map dimension _, ⟨_, rfl, fills_slotNames (plain dimension) "S"⟩, ?_,
    fun world => call_caseFunction world rfl⟩
  have only := Node.collect_functionOf Node.reader_arms? ["move"] "sum" (sumType dimension)
    (slotNames "S" dimension 1) (byCase "sum" (sumType dimension) dimension "value" fun slot =>
      .call (.named s!"f{slot}") [.named "value"] false)
  refine chooses_byCase Node.reader_called? ((Routine.collect_mk _ _ _ _ _).trans only)
    (fun slot => ?_) (fun slot => ?_) (fun slot => ?_)
  · rw [plain, Node.resolve_sumType]
  · simp [Node.arms?, Node.named]
  · have handle : withoutRawMark ("f" ++ slot.repr) = "f" ++ slot.repr := withoutRawMark_handle slot
    simp [Node.called?, Node.named, handle]

/-- Mapping the case of a slot goes on with the case at hand. -/
theorem call_mapItem {Data : Type} (world : World Data) {slot other : Nat} {routine : Routine}
    (routineIs : (mapItem dimension slot).routine? = some routine) (positive : 1 ≤ other)
    (below : other ≤ dimension) (edit value : Value Data) :
    call world (sumType dimension) routine [caseOf dimension other value, edit] =
      (if other = slot then apply world edit [value] else some value).map
        (caseOf dimension other) := by
  cases routineIs
  have inputs : bindInputs (sumType dimension)
      [.self, .input "f" (.someFunction "FnOnce" (.named s!"S{slot}") (.named s!"T{slot}"))]
      [caseOf dimension other value, edit] =
      some [("self", caseOf dimension other value), ("f", edit)] := by
    simp
  have subject : List.lookup (withoutRawMark "self")
      [("self", caseOf dimension other value), ("f", edit)] =
      some (caseOf dimension other value) := by simp
  have resolved (i : Nat) : Node.resolve (sumType dimension) [withoutRawMark "Self", summand i] =
      [sumType dimension, summand i] := by simp
  rw [call_routine inputs]
  simp only [List.any_nil, Bool.false_eq_true, if_false, run_singleton]
  rw [eval_choiceByCase positive below subject resolved, eval_inCase]
  -- both kinds of arms build the case again, and differ only in what they put into it
  congr 1
  split
  · rw [eval_call_variable (by rfl)]
    simp [List.lookup_cons]
  · simp

theorem mapsCase_mapItem {slot : Nat} (positive : 1 ≤ slot) (below : slot ≤ dimension)
    {definition : Definition} (defines : (mapItem dimension slot).definition? = some definition) :
    MapsCase dimension slot definition := by
  cases defines
  refine ⟨rfl, ⟨_, rfl, fills_slotNamesWith (plain dimension) "S" slot "T"⟩, ?_, ?_, ?_⟩
  · refine chooses_byCase Node.reader_called? (Routine.collect_mk _ _ _ _ _)
      (fun i => by simp) (fun i => ?_) (fun i => ?_)
    · rw [Node.collect_inCase Node.reader_arms?]
      split <;> simp [Node.arms?, Node.named]
    · rw [Node.collect_inCase Node.reader_called?]
      split <;> simp [Node.called?, Node.named]
  · intro Data world edit value
    exact (call_mapItem world rfl positive below edit value).trans (by rw [if_pos rfl])
  · intro Data world edit value other otherPositive otherBelow different
    refine (call_mapItem world rfl otherPositive otherBelow edit value).trans ?_
    rw [if_neg different, Option.map_some]

/-- The file of a sum agrees on its slots. -/
structure SlotBySlot (dimension : Nat) (file : File) : Prop where
  /-- One type is declared, with a parameter and a case for each slot. -/
  declared : ∃ declared, file.declared = [declared] ∧ declared.name = sumType dimension ∧
    Slotted dimension declared.parameters (fun i => s!"S{i}") ∧
    Slotted dimension declared.parts fun i => (summand i, .named s!"S{i}")
  /-- There is one injection into the case of each slot. -/
  injections : ∀ slot, 1 ≤ slot → slot ≤ dimension → ∃ definition,
    Only file.definitions (injection dimension slot) definition ∧
      Injects dimension slot definition
  /-- There is one function that handles all cases. -/
  caseFunction : ∃ definition, Only file.definitions s!"sum{dimension}" definition ∧
    HandlesAll dimension definition
  /-- There is one method that maps the case of each slot. -/
  maps : ∀ slot, 1 ≤ slot → slot ≤ dimension → ∃ definition,
    Only (file.definitionsOn (sumType dimension)) (mapSlot slot) definition ∧
      MapsCase dimension slot definition

theorem items_of_file {place : Place} {file : File} (h : Sum.file dimension place = .ok file) :
    ∃ path trait block, file.items =
      [.importing path, enumeration dimension, trait, Sum.caseFunction dimension] ++
        (slotsUp dimension).map (injectionItem dimension) ++ [block] := by
  obtain ⟨path, -, h⟩ := Outcome.bind_eq_ok_iff.1 h
  cases Outcome.pure_eq_ok_iff.1 h
  exact ⟨path, _, _, rfl⟩

theorem slotBySlot_of_file {place : Place} {file : File}
    (h : Sum.file dimension place = .ok file) : SlotBySlot dimension file := by
  have once : (file.routines.map Routine.name).Nodup := by
    rw [names_sum h]
    exact nodup_names_sum dimension
  obtain ⟨path, trait, block, items⟩ := items_of_file h
  constructor
  case declared =>
    refine ⟨_, Sum.declared h, rfl, ?_, slotted_map dimension _⟩
    rw [Declared.ofSlots, slotNames_eq]
    exact slotted_map dimension _
  case injections =>
    intro slot positive below
    have member : injectionItem dimension slot ∈ file.items := by
      rw [items]
      exact List.mem_append_left _ (List.mem_append_right _
        (List.mem_map.2 ⟨slot, mem_slotsUp.2 ⟨positive, below⟩, rfl⟩))
    exact ⟨_, only_of_item once member rfl (withoutRawMark_injection dimension slot),
      injects_injectionItem rfl⟩
  case caseFunction =>
    have member : Sum.caseFunction dimension ∈ file.items := by simp [items]
    exact ⟨_, only_of_item once member rfl (withoutRawMark_numbered "sum" (by decide) dimension),
      handlesAll_caseFunction rfl⟩
  case maps =>
    intro slot positive below
    refine ⟨_, only_of_mem (nodup_methods_sum h) ?_ (withoutRawMark_mapSlot slot),
      mapsCase_mapItem positive below rfl⟩
    rw [definitionsOn_sum h]
    exact List.mem_filterMap.2 ⟨_, List.mem_map.2
      ⟨slot, mem_slotsDown.2 ⟨positive, below⟩, rfl⟩, rfl⟩

end Sum

/-! ## Both -/

/-- The files of the product and of the sum of a dimension agree on its slots. -/
theorem slotBySlot_of_files {productPlace sumPlace : Place} {product sum : File}
    (productFile : Product.file dimension productPlace = .ok product)
    (sumFile : Sum.file dimension sumPlace = .ok sum) :
    Product.SlotBySlot dimension product ∧ Sum.SlotBySlot dimension sum :=
  ⟨Product.slotBySlot_of_file productFile, Sum.slotBySlot_of_file sumFile⟩

/-- The product of three slots. -/
def threeFactors : { file : File // Product.file 3 ⟨"src", "", "products"⟩ = .ok file } :=
  Outcome.value (by decide +kernel)

/-- The sum of three slots. -/
def threeSummands : { file : File // Sum.file 3 ⟨"src", "", "sums"⟩ = .ok file } :=
  Outcome.value (by decide +kernel)

/-- The product and the sum of three slots. -/
theorem slotBySlot_three : ∃ product sum,
    Product.file 3 ⟨"src", "", "products"⟩ = .ok product ∧
      Sum.file 3 ⟨"src", "", "sums"⟩ = .ok sum ∧
      Product.SlotBySlot 3 product ∧ Sum.SlotBySlot 3 sum := by
  obtain ⟨product, productFile⟩ := threeFactors
  obtain ⟨sum, sumFile⟩ := threeSummands
  exact ⟨product, sum, productFile, sumFile, slotBySlot_of_files productFile sumFile⟩

end Slotwise.Family
