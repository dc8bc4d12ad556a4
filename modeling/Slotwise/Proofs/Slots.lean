import Slotwise.Proofs.Families
import Slotwise.Proofs.SlotOrder
/-!
# What generated functions say about slots

A list in the code of a dimension has one entry for each slot, slot `i` at position `N - i`
(`Slotted`). A function is read with the type of its output and the clause behind it, and there is
to be exactly one of its name (`Only`). What it reads off its variables, which variables it calls,
which literals and choices it consists of: all that is collected from its body.
-/

namespace Slotwise.Family

open Code Naming

/-! ## One entry for each slot -/

/-- One entry for each slot, slot `i` at position `dimension - i`. -/
def Slotted {α : Type} (dimension : Nat) (entries : List α) (entry : Nat → α) : Prop :=
  entries.length = dimension ∧ ∀ slot, 1 ≤ slot → slot ≤ dimension →
    entries[dimension - slot]? = some (entry slot)

theorem length_slotsDown (dimension : Nat) : (slotsDown dimension).length = dimension := by
  rw [slotsDown, List.length_reverse, List.length_range']

theorem slotted_map {α : Type} (dimension : Nat) (entry : Nat → α) :
    Slotted dimension ((slotsDown dimension).map entry) entry := by
  refine ⟨by rw [List.length_map, length_slotsDown], fun slot positive below => ?_⟩
  rw [List.getElem?_map, getElem?_slotsDown positive below, Option.map_some]

theorem slotted_flatMap {α : Type} {dimension : Nat} {entries : Nat → List α} {entry : Nat → α}
    (single : ∀ slot, entries slot = [entry slot]) :
    Slotted dimension ((slotsDown dimension).flatMap entries) entry := by
  have listed : (slotsDown dimension).flatMap entries = (slotsDown dimension).map entry := by
    rw [List.map_eq_flatMap]
    exact List.flatMap_congr fun slot _ => single slot
  exact listed ▸ slotted_map dimension entry

/-- What only one slot has occurs once. -/
theorem flatMap_slotsDown {α : Type} {dimension slot : Nat} (positive : 1 ≤ slot)
    (below : slot ≤ dimension) (x : α) :
    ((slotsDown dimension).flatMap fun i => if i = slot then [x] else []) = [x] := by
  have chosen : ((slotsDown dimension).flatMap fun i => if i = slot then [x] else []) =
      ((slotsDown dimension).filter (· == slot)).map fun _ => x := by
    induction slotsDown dimension with
    | nil => rfl
    | cons i rest ih =>
      rw [List.flatMap_cons, ih, List.filter_cons]
      by_cases same : i = slot <;> simp [same]
  have once : ((slotsDown dimension).map id).Nodup := by
    rw [List.map_id]
    exact nodup_slotsDown dimension
  have single : (slotsDown dimension).filter (· == slot) = [slot] :=
    filter_eq_singleton once (mem_slotsDown.2 ⟨positive, below⟩)
  rw [chosen, single, List.map_singleton]

theorem slotNames_eq (base : String) (dimension : Nat) :
    slotNames base dimension 1 = (slotsDown dimension).map fun slot => base ++ toString slot := by
  rw [slotNames, Nat.add_sub_cancel, slotsDown]

end Slotwise.Family

namespace Slotwise.Code

open Naming

/-! ## Functions with their types -/

/-- A function as it is defined. -/
structure Definition where
  /-- The name, the inputs and the body. -/
  routine : Routine
  /-- The type of the output. -/
  output : Option Node
  /-- The clause about the type parameters. -/
  clause : Option Node

/-- The type of the output of the function that an item defines. -/
def Node.output? : Node → Option Node
  | attributed _ item => item.output?
  | visible _ item => item.output?
  | function _ _ _ _ _ output _ _ => output
  | _ => none

/-- The clause of the function that an item defines. -/
def Node.clause? : Node → Option Node
  | attributed _ item => item.clause?
  | visible _ item => item.clause?
  | function _ _ _ _ _ _ clause _ => clause
  | _ => none

/-- The definition of the function that an item defines. -/
def Node.definition? (item : Node) : Option Definition :=
  item.routine?.map fun routine => ⟨routine, item.output?, item.clause?⟩

/-- The definitions of the methods that an implementation gives to `type` itself. -/
def Node.definitionsOn (type : String) : Node → List Definition
  | implementation _ _ _ none subject _ items =>
    if subject.names? = some [type] then items.filterMap definition? else []
  | _ => []

/-- The functions that a file defines. -/
def File.definitions (file : File) : List Definition :=
  file.items.filterMap Node.definition?

/-- The methods that a file defines on `type` itself. -/
def File.definitionsOn (file : File) (type : String) : List Definition :=
  file.items.flatMap (Node.definitionsOn type)

/-- There is exactly one definition of a name. -/
def Only (definitions : List Definition) (name : String) (definition : Definition) : Prop :=
  definitions.filter (·.routine.name == name) = [definition]

theorem map_routine_filterMap (items : List Node) :
    (items.filterMap Node.definition?).map Definition.routine = items.filterMap Node.routine? := by
  have each (item : Node) : item.definition?.map Definition.routine = item.routine? := by
    rw [Node.definition?, Option.map_map]
    exact Option.map_id'
  simp only [List.map_filterMap, each]

theorem File.map_routine_definitions (file : File) :
    file.definitions.map Definition.routine = file.routines :=
  map_routine_filterMap file.items

/-- A definition is the only one of its name if no two bear one name. -/
theorem only_of_mem {definitions : List Definition}
    (once : (definitions.map (·.routine.name)).Nodup) {definition : Definition}
    (member : definition ∈ definitions) {name : String} (named : definition.routine.name = name) :
    Only definitions name definition :=
  named ▸ filter_eq_singleton once member

/-- The function of an item is the only one of its name if no two of the file bear one name. -/
theorem only_of_item {file : File} (once : (file.routines.map Routine.name).Nodup) {item : Node}
    (member : item ∈ file.items) {definition : Definition}
    (defines : item.definition? = some definition) {name : String}
    (named : definition.routine.name = name) : Only file.definitions name definition := by
  refine only_of_mem ?_ (List.mem_filterMap.2 ⟨item, member, defines⟩) named
  rwa [← File.map_routine_definitions, List.map_map] at once

/-! ## What a body consists of -/

namespace Node

/-- The component that an expression reads off a variable. -/
def read? : Node → Option (String × String)
  | member (path false [segment holder none]) name =>
    some (withoutRawMark holder, withoutRawMark name)
  | _ => none

/-- The function or variable that an expression calls by its name. -/
def called? : Node → Option String
  | call (path false [segment name none]) _ _ => some (withoutRawMark name)
  | _ => none

/-- The type and the entries of a struct literal. -/
def literal? : Node → Option (Option (List String) × List (Option String × Node))
  | fields subject items _ =>
    some (subject.names?, items.map fun item => (item.fieldName?, item.fieldContent))
  | _ => none

/-- The arms of a choice. -/
def arms? : Node → Option (List Node)
  | choice _ arms => some arms
  | _ => none

/-- The case that an arm is for, in methods of the type `owner`. -/
def armCase? (owner : String) : Node → Option (List String)
  | arm (call subject _ _) none _ _ => subject.names?.map (resolve owner)
  | _ => none

/-- Nothing is found at names, types, variables and the frames of functions and arms. -/
structure Reader {α : Type} (f : Node → Option α) : Prop where
  /-- Names. -/
  path : ∀ rooted segments, f (path rooted segments) = none
  /-- Parts of names. -/
  segment : ∀ name arguments, f (segment name arguments) = none
  /-- Arguments in angle brackets. -/
  angled : ∀ colons arguments comma, f (angled colons arguments comma) = none
  /-- What bears a type, and fields with what stands for them. -/
  typed : ∀ subject type, f (typed subject type) = none
  /-- Tokens as they are. -/
  verbatim : ∀ tokens, f (verbatim tokens) = none
  /-- Variables in patterns. -/
  capture : ∀ words name pattern, f (capture words name pattern) = none
  /-- Functions. -/
  closure : ∀ lifetimes words inputs comma output body,
    f (closure lifetimes words inputs comma output body) = none
  /-- Blocks. -/
  block : ∀ words statements, f (block words statements) = none
  /-- Arms. -/
  arm : ∀ pattern guard body comma, f (arm pattern guard body comma) = none
  /-- The cases of sums. -/
  inCase : ∀ owner slot payload, f (Family.Sum.inCase owner slot payload) = none

theorem reader_read? : Reader read? := by
  constructor <;> intros <;> rfl

theorem reader_called? : Reader called? := by
  constructor <;> intros <;> rfl

theorem reader_literal? : Reader literal? := by
  constructor <;> intros <;> rfl

theorem reader_arms? : Reader arms? := by
  constructor <;> intros <;> rfl

section Readers

variable {α : Type} {f : Node → Option α} (reader : Reader f)

include reader

theorem collect_named (name : String) : (named name).collect f = [] := by
  simp [named, reader.path, reader.segment]

theorem collect_namedAlong (names : List String) : (namedAlong names).collect f = [] := by
  simp [namedAlong, reader.path, reader.segment, List.flatMap_map]

theorem collect_appliedTo (name : String) (arguments : List String) :
    (appliedTo name arguments).collect f = [] := by
  simp [appliedTo, applied, reader.path, reader.segment, reader.angled, collect_named reader,
    List.flatMap_map]

theorem collect_binding (name : String) : (binding name).collect f = [] := by
  simp [binding, reader.capture]

theorem collect_fieldIs (name : String) (content : Node) :
    (fieldIs name content).collect f = content.collect f := by
  simp [fieldIs, reader.typed, reader.verbatim]

theorem collect_inCase (owner : String) (slot : Nat) (payload : Node) :
    (Family.Sum.inCase owner slot payload).collect f = payload.collect f := by
  have here := reader.inCase owner slot payload
  rw [Family.Sum.inCase] at here ⊢
  simp [here, collect_namedAlong reader]

/-- In a function of one variable all is found in the body. -/
theorem collect_functionOf (words : List String) (name owner : String) (arguments : List String)
    (body : Node) :
    (closure none words [input name (appliedTo owner arguments)] false none body).collect f =
      body.collect f := by
  simp [input, reader.closure, reader.typed, collect_binding reader, collect_appliedTo reader]

theorem collect_value (dimension : Nat) (content : Nat → Node) :
    (Family.Product.value dimension content).collect f =
      (f (Family.Product.value dimension content)).toList ++
        (slotsDown dimension).flatMap fun slot => (content slot).collect f := by
  simp [Family.Product.value, collect_named reader, collect_fieldIs reader, List.flatMap_map]

theorem collect_arms (spelled payload : String) (body : Nat → Node) (slots : List Nat) :
    (slots.map fun slot => arm (Family.Sum.inCase spelled slot (.binding payload)) none (body slot)
      true).flatMap (collect f) = slots.flatMap fun slot => (body slot).collect f := by
  simp [List.flatMap_map, reader.arm, collect_inCase reader, collect_binding reader]

theorem collect_byCase (subject spelled payload : String) (dimension : Nat) (body : Nat → Node) :
    (Family.Sum.byCase subject spelled dimension payload body).collect f =
      (f (Family.Sum.byCase subject spelled dimension payload body)).toList ++
        (slotsDown dimension).flatMap fun slot => (body slot).collect f := by
  rw [Family.Sum.byCase, collect_choice, List.flatMap_cons, collect_named reader, List.nil_append,
    collect_arms reader]

end Readers

end Node

/-- What is found in the body of a routine. -/
def Routine.collect {α : Type} (f : Node → Option α) (routine : Routine) : List α :=
  routine.body.flatMap (Node.collect f)

/-- All is found in the one expression of a body. -/
theorem Routine.collect_mk {α : Type} (f : Node → Option α) (name : String) (isAsync : Bool)
    (inputs : List Node) (body : Node) :
    Routine.collect f ⟨name, isAsync, inputs, [body]⟩ = body.collect f :=
  List.flatMap_singleton _ _

end Slotwise.Code
