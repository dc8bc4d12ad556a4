import Slotwise.Proofs.Shapes
/-!
# Functions of the families

The functions of generated files are called by name: as long as no two of them bear the same name,
each is found (`World.function?_of_mem`). A product with a value in each slot and a case of a sum are
what the functions of the families pass to each other, and numbered variables hold what belongs to
the slots (`lookup_numbered`).
-/

namespace Slotwise.Code

open Naming

/-! ## Calling functions by name -/

/-- The functions that a file defines. -/
def File.routines (file : File) : List Routine :=
  file.items.filterMap Node.routine?

namespace World

variable {Data : Type} (world : World Data)

/-- What comes of calling the function `name`. -/
noncomputable def invoke (name : String) (values : List (Value Data)) : Option (Value Data) :=
  (world.function? name).bind fun routine => Code.call world "" routine values

variable {world}

theorem find?_name {routines : List Routine} (once : (routines.map Routine.name).Nodup)
    {routine : Routine} (member : routine ∈ routines) :
    routines.find? (·.name == routine.name) = some routine := by
  rw [← List.head?_filter, filter_eq_singleton once member, List.head?_cons]

theorem function?_eq_find? (name : String) :
    world.function? name = (world.files.flatMap File.routines).find? (·.name == name) := by
  unfold World.function?
  induction world.files with
  | nil => rfl
  | cons file rest ih =>
    rw [List.findSome?_cons, List.flatMap_cons, List.find?_append, ih]
    cases found : file.function? name with
    | none =>
      rw [File.function?] at found
      rw [File.routines, found, Option.none_or]
    | some routine =>
      rw [File.function?] at found
      rw [File.routines, found, Option.some_or]

/-- A function is found by its name if no other function bears it. -/
theorem function?_of_mem (once : ((world.files.flatMap File.routines).map Routine.name).Nodup)
    {routine : Routine} (member : routine ∈ world.files.flatMap File.routines) :
    world.function? routine.name = some routine := by
  rw [function?_eq_find?, find?_name once member]

/-- The function of an item is found by its name if no other function bears it. -/
theorem function?_of_item (once : ((world.files.flatMap File.routines).map Routine.name).Nodup)
    {file : File} (atHand : file ∈ world.files) {item : Node} (member : item ∈ file.items)
    {name : String} (named : item.routine?.map Routine.name = some name) :
    world.function? name = item.routine? := by
  obtain ⟨routine, routineIs, rfl⟩ := Option.map_eq_some_iff.1 named
  rw [routineIs]
  refine function?_of_mem once (List.mem_flatMap.2 ⟨file, atHand, ?_⟩)
  exact List.mem_filterMap.2 ⟨item, member, routineIs⟩

end World

/-! ## Variables with numbers -/

@[simp] theorem toString_text (text : String) : toString text = text := rfl

theorem digits_markFree (number : Nat) : '#' ∉ (toString number).toList := by
  intro inside
  have continues := Text.isXidContinue_of_mem_toString inside
  exact absurd continues (by decide)

/-- A numbered name is no other name that begins differently. -/
theorem numbered_ne_name {base name : String} (head : base.toList.head? ≠ name.toList.head?)
    (filled : base ≠ "") (number : Nat) : base ++ toString number ≠ name := by
  intro same
  have texts : (base ++ toString number).toList = name.toList := congrArg String.toList same
  rw [String.toList_append] at texts
  cases first : base.toList with
  | nil => exact filled (String.toList_eq_nil_iff.1 first)
  | cons c cs => simp [first, ← texts] at head

section Variables

variable {Data : Type} {world : World Data} {owner : String} {scope : Variables Data}

theorem lookup_cons_of_ne {name entry : String} (other : name ≠ entry) (value : Value Data) :
    ((entry, value) :: scope).lookup name = scope.lookup name := by
  rw [List.lookup_cons, beq_false_of_ne other]

/-- Variables that all have the same value. -/
theorem lookup_same (names : List String) (value : Value Data) (name : String) :
    (names.map fun other => (other, value)).lookup name =
      if name ∈ names then some value else none := by
  induction names with
  | nil => rfl
  | cons first rest ih =>
    rw [List.map_cons]
    by_cases same : name = first
    · subst same
      simp
    · rw [lookup_cons_of_ne same, ih]
      simp [same]

theorem nodup_slotsDown (dimension : Nat) : (slotsDown dimension).Nodup := by
  rw [slotsDown, List.nodup_reverse]
  exact List.nodup_range'

@[simp] theorem mem_slotsDown {dimension slot : Nat} :
    slot ∈ slotsDown dimension ↔ 1 ≤ slot ∧ slot ≤ dimension := by
  rw [slotsDown, List.mem_reverse, List.mem_range'_1]
  omega

/-- The variable with the number of a slot. -/
theorem lookup_numbered {base : String} {slots : List Nat} (once : slots.Nodup)
    (value : Nat → Value Data) {slot : Nat} (member : slot ∈ slots) :
    (slots.map fun i => (base ++ toString i, value i)).lookup (base ++ toString slot) =
      some (value slot) := by
  refine lookup_of_mem ?_ (List.mem_map.2 ⟨slot, member, rfl⟩)
  rw [List.map_map]
  exact once.map (numbered_injective base)

/-- A variable that bears none of the numbers. -/
theorem lookup_numbered_of_ne {base name : String} {slots : List Nat} (value : Nat → Value Data)
    (other : ∀ i ∈ slots, name ≠ base ++ toString i) :
    (slots.map fun i => (base ++ toString i, value i)).lookup name = none := by
  rw [List.lookup_eq_none_iff]
  intro entry member
  obtain ⟨i, inside, rfl⟩ := List.mem_map.1 member
  simpa using other i inside

/-- Inputs that are variables take one value each. -/
theorem bindInputs_map {ι : Type} (xs : List ι) (name : ι → String) (type : ι → Node)
    (value : ι → Value Data) :
    bindInputs owner (xs.map fun x => .input (name x) (type x)) (xs.map value) =
      some (xs.map fun x => (withoutRawMark (name x), value x)) := by
  induction xs with
  | nil => rfl
  | cons x rest ih => rw [List.map_cons, List.map_cons, bindInputs_input, ih]; rfl

/-- Variables by their names. -/
theorem mapM_named_variables {ι : Type} (xs : List ι) (name : ι → String)
    (value : ι → Value Data)
    (each : ∀ x ∈ xs, scope.lookup (withoutRawMark (name x)) = some (value x)) :
    (xs.map fun x => Node.named (name x)).mapM (eval world owner scope) = some (xs.map value) := by
  rw [List.mapM_map]
  refine Outcome.mapM_eq_some_map fun x member => ?_
  rw [Function.comp_apply, eval_named, each x member]

theorem matchFields_variables {ι : Type} (xs : List ι) (field : ι → String)
    (value : ι → Value Data) {fields : Variables Data}
    (found : ∀ x ∈ xs, fields.lookup (withoutRawMark (field x)) = some (value x)) :
    matchFields owner (xs.map fun x => .binding (field x)) fields =
      some (some (xs.map fun x => (withoutRawMark (field x), value x))) := by
  induction xs with
  | nil => rfl
  | cons x rest ih =>
    have here := found x List.mem_cons_self
    have behind := ih fun y member => found y (List.mem_cons_of_mem _ member)
    rw [List.map_cons, List.map_cons, Node.binding, matchFields_capture here, behind, bothFit_fits,
      List.singleton_append]

/-- A struct pattern that lists variables named like the fields. -/
theorem matchPattern_variables {ι : Type} (xs : List ι) (field : ι → String)
    (value : ι → Value Data) (subject : Node) (comma : Bool) {names : List String}
    (spelled : subject.names? = some names)
    (once : (xs.map fun x => withoutRawMark (field x)).Nodup) :
    matchPattern owner (.fields subject (xs.map fun x => .binding (field x)) comma)
        (.record (Node.resolve owner names)
          (xs.map fun x => (withoutRawMark (field x), value x))) =
      some (some (xs.map fun x => (withoutRawMark (field x), value x))) := by
  have found : ∀ x ∈ xs, (xs.map fun x => (withoutRawMark (field x), value x)).lookup
      (withoutRawMark (field x)) = some (value x) := by
    intro x member
    refine lookup_of_mem ?_ (List.mem_map.2 ⟨x, member, rfl⟩)
    simpa [List.map_map, Function.comp_def] using once
  have listed : (xs.map fun x => Node.binding (field x)).filterMap Node.fieldName? =
      xs.map fun x => withoutRawMark (field x) :=
    filterMap_map_some (fun _ => by rfl) xs
  have mentioned : mentionsOnce (xs.map fun x => .binding (field x))
      (xs.map fun x => (withoutRawMark (field x), value x)) = true := by
    unfold mentionsOnce
    rw [listed]
    simp only [decide_eq_true once, Bool.true_and, Bool.or_eq_true, List.all_eq_true]
    right
    intro entry member
    obtain ⟨x, inside, rfl⟩ := List.mem_map.1 member
    exact List.contains_iff_mem.2 (List.mem_map.2 ⟨x, inside, rfl⟩)
  rw [matchPattern_record spelled, if_pos rfl, if_pos mentioned]
  exact matchFields_variables xs field value found

end Variables

/-! ## Calls and declarations -/

section Calls

variable {Data : Type} {world : World Data} {owner : String} {scope : Variables Data}

@[simp] theorem eval_paren (subject : Node) :
    eval world owner scope (.paren subject) = eval world owner scope subject :=
  eval_eq_evalStep world owner scope (.paren subject)

@[simp] theorem eval_unary (operator : String) (subject : Node) :
    eval world owner scope (.unary operator subject) = eval world owner scope subject :=
  eval_eq_evalStep world owner scope (.unary operator subject)

/-- A call of what an expression is worth. -/
theorem eval_call_value {subject : Node} (computed : subject.names? = none) {inputs : List Node}
    {function : Value Data} {values : List (Value Data)}
    (functionIs : eval world owner scope subject = some function)
    (valuesAre : inputs.mapM (eval world owner scope) = some values) (comma : Bool) :
    eval world owner scope (.call subject inputs comma) = apply world function values := by
  rw [eval_call, valuesAre, Option.bind_some]
  simp only [computed, functionIs, Option.bind_some]

/-- A call of a function by a name that is no variable, with or without arguments in angle
brackets. -/
theorem eval_invoke {subject : Node} {name : String} (spelled : subject.names? = some [name])
    (free : scope.lookup name = none) (inputs : List Node) (comma : Bool) :
    eval world owner scope (.call subject inputs comma) =
      (inputs.mapM (eval world owner scope)).bind (world.invoke name) := by
  rw [eval_call]
  simp only [spelled, free]
  rfl

/-- Reference counts do not show in values. -/
theorem eval_counted {step : String} (known : step = "new" ∨ step = "clone") (subject : Node)
    (comma : Bool) :
    eval world owner scope (.call (.namedAlong ["Rc", step]) [subject] comma) =
      eval world owner scope subject := by
  have names : ["Rc", step].map withoutRawMark = ["Rc", step] := by
    obtain rfl | rfl := known <;> decide
  have pointer : Node.isPointerMaker ["Rc", step] = true := by
    obtain rfl | rfl := known <;> decide
  rw [eval_call]
  simp only [Node.names?_namedAlong, names, pointer]
  cases h : eval world owner scope subject <;> simp [h]

/-- The declaration of a variable before other statements. -/
theorem run_letIs {name : String} {subject : Node} {value : Value Data}
    (valueIs : eval world owner scope subject = some value) {rest : List Node} (more : rest ≠ []) :
    run world owner scope (.letIs name subject :: rest) =
      run world owner ((withoutRawMark name, value) :: scope) rest := by
  obtain ⟨next, others, rfl⟩ := List.exists_cons_of_ne_nil more
  exact run_let valueIs (matchPattern_binding name value)

end Calls

/-! ## Products and sums -/

section Products

variable {Data : Type} {world : World Data} {owner : String} {scope : Variables Data}

/-- The product with these values in its slots. -/
def productOf (dimension : Nat) (value : Nat → Value Data) : Value Data :=
  .record [productType dimension] ((slotsDown dimension).map fun slot => (factor slot, value slot))

/-- The case of a sum in a slot with this value inside. -/
def caseOf (dimension slot : Nat) (value : Value Data) : Value Data :=
  .case [sumType dimension, summand slot] [value]

theorem productOf_congr {dimension : Nat} {value other : Nat → Value Data}
    (same : ∀ slot, 1 ≤ slot → slot ≤ dimension → value slot = other slot) :
    productOf dimension value = productOf dimension other := by
  unfold productOf
  congr 1
  refine List.map_congr_left fun slot member => ?_
  obtain ⟨positive, below⟩ := mem_slotsDown.1 member
  rw [same slot positive below]

/-- A product literal. -/
theorem eval_productLiteral {dimension : Nat} {content : Nat → Node} {value : Nat → Value Data}
    (each : ∀ slot, 1 ≤ slot → slot ≤ dimension →
      eval world owner scope (content slot) = some (value slot)) (comma : Bool) :
    eval world owner scope (.fields (.named (productType dimension))
        ((slotsDown dimension).map fun slot => .fieldIs (factor slot) (content slot)) comma) =
      some (productOf dimension value) := by
  refine Optics.Shape.eval_product comma fun slot member => ?_
  obtain ⟨positive, below⟩ := mem_slotsDown.1 (List.mem_reverse.2 member)
  exact each slot positive below

/-- The component of a product in a slot. -/
theorem eval_factor {dimension slot : Nat} {value : Nat → Value Data} {subject : Node}
    (subjectIs : eval world owner scope subject = some (productOf dimension value))
    (positive : 1 ≤ slot) (below : slot ≤ dimension) :
    eval world owner scope (.member subject (factor slot)) = some (value slot) := by
  rw [eval_member subjectIs, withoutRawMark_factor]
  exact lookup_numbered (nodup_slotsDown dimension) value (mem_slotsDown.2 ⟨positive, below⟩)

/-- The pattern with one variable for each component of a product. -/
theorem matchPattern_factors (dimension : Nat) (value : Nat → Value Data) (comma : Bool) :
    matchPattern owner (.fields (.named (productType dimension))
        ((slotsDown dimension).map fun slot => .binding (factor slot)) comma)
        (productOf dimension value) =
      some (some ((slotsDown dimension).map fun slot => (factor slot, value slot))) := by
  have once : ((slotsDown dimension).map fun slot => withoutRawMark (factor slot)).Nodup := by
    simpa using (nodup_slotsDown dimension).map factor_injective
  have fits := @matchPattern_variables Data owner _ (slotsDown dimension) factor value
    (.named (productType dimension)) comma _ (Node.names?_named _) once
  simpa [productOf] using fits

/-- A case of a sum fits the pattern of its own slot alone, however the sum is spelled. -/
theorem matchPattern_caseOf {dimension slot : Nat} {spelled : String}
    (resolved : Node.resolve owner [withoutRawMark spelled, summand slot] =
      [sumType dimension, summand slot]) (other : Nat) (name : String) (value : Value Data) :
    matchPattern owner (Family.Sum.inCase spelled slot (.binding name))
        (caseOf dimension other value) =
      if slot = other then some (some [(withoutRawMark name, value)]) else some none := by
  have names : (Node.namedAlong [spelled, summand slot]).names? =
      some [withoutRawMark spelled, summand slot] := by simp
  rw [Family.Sum.inCase, caseOf, matchPattern_call _ _ _ names, resolved]
  simp [summand_injective.eq_iff]

theorem matchPattern_inCase (dimension slot other : Nat) (name : String) (value : Value Data) :
    matchPattern owner (Family.Sum.inCase (sumType dimension) slot (.binding name))
        (caseOf dimension other value) =
      if slot = other then some (some [(withoutRawMark name, value)]) else some none :=
  matchPattern_caseOf (by simp) other name value

theorem eval_inCase (dimension slot : Nat) (content : Node) :
    eval world owner scope (Family.Sum.inCase (sumType dimension) slot content) =
      (eval world owner scope content).map (caseOf dimension slot) := by
  have other (name : String) (h : name.toList.head? ≠ some 'S') : sumType dimension ≠ name := by
    intro same
    rw [← same, sumType, String.toList_append] at h
    exact h rfl
  have isCase : Node.isPointerMaker
      [withoutRawMark (sumType dimension), withoutRawMark (summand slot)] = false := by
    simp [Node.isPointerMaker, other "Box" (by decide), other "Rc" (by decide)]
  rw [Family.Sum.inCase, eval_case _ _ isCase]
  simp only [withoutRawMark_sumType, withoutRawMark_summand, Node.resolve_sumType]
  rfl

/-- A choice by cases goes on with the value of the case at hand, however the sum is spelled. -/
theorem eval_choiceByCase {dimension slot : Nat} (positive : 1 ≤ slot) (below : slot ≤ dimension)
    {subject spelled : String} {value : Value Data}
    (subjectIs : scope.lookup (withoutRawMark subject) = some (caseOf dimension slot value))
    (resolved : ∀ i, Node.resolve owner [withoutRawMark spelled, summand i] =
      [sumType dimension, summand i]) (payload : String) (body : Nat → Node) :
    eval world owner scope (Family.Sum.byCase subject spelled dimension payload body) =
      eval world owner ((withoutRawMark payload, value) :: scope) (body slot) := by
  have fits : matchPattern owner (Family.Sum.inCase spelled slot (.binding payload))
      (caseOf dimension slot value) = some (some [(withoutRawMark payload, value)]) := by
    rw [matchPattern_caseOf (resolved slot), if_pos rfl]
  have chosen : select world owner scope
      ((slotsDown dimension).map fun i =>
        .arm (Family.Sum.inCase spelled i (.binding payload)) none (body i) true)
      (caseOf dimension slot value) =
      eval world owner ([(withoutRawMark payload, value)] ++ scope) (body slot) := by
    rw [← select_fits fits [], ← List.append_nil (List.map _ _)]
    refine select_of_mem (mem_slotsDown.2 ⟨positive, below⟩) ?_ ?_ []
    · rw [fits]
      simp
    · intro other _ different
      rw [matchPattern_caseOf (resolved other), if_neg different]
  rw [Family.Sum.byCase, eval_choice, eval_named, subjectIs, Option.bind_some, chosen]
  rfl

theorem eval_byCase {dimension slot : Nat} (positive : 1 ≤ slot) (below : slot ≤ dimension)
    {subject : String} {value : Value Data}
    (subjectIs : scope.lookup (withoutRawMark subject) = some (caseOf dimension slot value))
    (payload : String) (body : Nat → Node) :
    eval world owner scope
        (Family.Sum.byCase subject (sumType dimension) dimension payload body) =
      eval world owner ((withoutRawMark payload, value) :: scope) (body slot) :=
  eval_choiceByCase positive below subjectIs (fun i => by simp) payload body

end Products

end Slotwise.Code
