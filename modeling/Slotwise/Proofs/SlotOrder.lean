import Slotwise.Family.Sum
import Slotwise.Proofs.Outcome
import Slotwise.Proofs.Subtrees
/-!
# The order of generic arguments

A list of arguments in angle brackets that belongs to a product or sum has one argument for each
slot, from the highest slot down: slot `i` of dimension `N` stands at position `N - i`
(`InSlotOrder`). The code of a sum and of its duality contains no other list of arguments.
-/

namespace Slotwise.Code.Node

open Naming

/-- The arguments of a pair of angle brackets. -/
@[simp] def arguments? : Node → Option (List Node)
  | angled _ arguments _ => some arguments
  | _ => none

/-- The lists of arguments in angle brackets. -/
abbrev argumentLists (node : Node) : List (List Node) :=
  node.collect arguments?

/-! ## Lists in the forms of generated code -/

@[simp] theorem argumentLists_named (name : String) : (named name).argumentLists = [] := by
  simp [named]

@[simp] theorem flatMap_argumentLists_named (names : List String) :
    (names.map named).flatMap argumentLists = [] := by
  simp [List.flatMap_map]

@[simp] theorem argumentLists_applied (name : String) (arguments : List Node) :
    (applied name arguments).argumentLists = arguments :: arguments.flatMap argumentLists := by
  simp [applied]

@[simp] theorem argumentLists_binding (name : String) : (binding name).argumentLists = [] := by
  simp [binding]

@[simp] theorem argumentLists_input (name : String) (type : Node) :
    (input name type).argumentLists = type.argumentLists := by
  simp [input]

@[simp] theorem argumentLists_someFunction (name : String) (x y : Node) :
    (someFunction name x y).argumentLists = x.argumentLists ++ y.argumentLists := by
  simp [someFunction, functionBound, traitBound]

@[simp] theorem argumentLists_parameters (names : List String) :
    (parameters names).argumentLists = [] := by
  simp [parameters, arguments?, List.flatMap_map]

@[simp] theorem argumentLists_docLine (text : String) : (docLine text).argumentLists = [] := by
  simp [docLine, textAttribute]

@[simp] theorem argumentLists_derivation (traits : List String) :
    (derivation traits).argumentLists = [] := by
  simp [derivation]

@[simp] theorem argumentLists_namedAlong (names : List String) :
    (namedAlong names).argumentLists = [] := by
  simp [namedAlong, List.flatMap_map]

@[simp] theorem argumentLists_isPublic (subject : Node) :
    (isPublic subject).argumentLists = subject.argumentLists := by
  simp [isPublic]

@[simp] theorem argumentLists_publicFunction (name : String) (names : Option Node)
    (inputs : List Node) (comma : Bool) (output : Option Node) (body : List Node) :
    (publicFunction name names inputs comma output body).argumentLists =
      names.toList.flatMap argumentLists ++ (inputs.flatMap argumentLists ++
        (output.toList.flatMap argumentLists ++ body.flatMap argumentLists)) := by
  simp [publicFunction]

@[simp] theorem argumentLists_fieldIs (name : String) (content : Node) :
    (fieldIs name content).argumentLists = content.argumentLists := by
  simp [fieldIs]

@[simp] theorem argumentLists_importing (names : List String) :
    (importing names).argumentLists = [] :=
  collect_importing arguments? (fun _ _ => rfl) (fun _ _ => rfl) rfl names

end Slotwise.Code.Node

namespace Slotwise.Family

open Code Code.Node Naming

/-! ## Slots in order -/

/-- What a generic argument says about a slot: the parameter of the slot, or a function from it. -/
def BelongsTo (slot : Nat) (argument : Node) : Prop :=
  ∃ base ∈ ["F", "S", "T"], argument = named s!"{base}{slot}" ∨
    ∃ trait output, argument = someFunction trait (named s!"{base}{slot}") (named output)

/-- One argument for each slot, slot `i` at position `dimension - i`. -/
def InSlotOrder (dimension : Nat) (arguments : List Node) : Prop :=
  arguments.length = dimension ∧ ∀ slot, 1 ≤ slot → slot ≤ dimension →
    ∃ argument, arguments[dimension - slot]? = some argument ∧ BelongsTo slot argument

theorem getElem?_slotsDown {dimension slot : Nat} (positive : 1 ≤ slot) (below : slot ≤ dimension) :
    (slotsDown dimension)[dimension - slot]? = some slot := by
  have inside : dimension - slot < (List.range' 1 dimension).length := by
    rw [List.length_range']
    omega
  rw [slotsDown, List.getElem?_reverse inside, List.length_range', List.getElem?_range' (by omega)]
  congr 1
  omega

/-- A list made slot by slot is in order. -/
theorem inSlotOrder_map {dimension : Nat} {argument : Nat → Node}
    (each : ∀ slot, BelongsTo slot (argument slot)) :
    InSlotOrder dimension ((slotsDown dimension).map argument) := by
  refine ⟨by simp [slotsDown], fun slot positive below => ⟨argument slot, ?_, each slot⟩⟩
  rw [List.getElem?_map, getElem?_slotsDown positive below]
  rfl

theorem inSlotOrder_slotNames {base : String} (known : base ∈ ["F", "S", "T"]) (dimension : Nat) :
    InSlotOrder dimension ((slotNames base dimension 1).map named) := by
  have slots : (slotNames base dimension 1).map named =
      (slotsDown dimension).map fun slot => named s!"{base}{slot}" := by
    rw [slotNames, List.map_map]
    rfl
  rw [slots]
  exact inSlotOrder_map fun slot => ⟨base, known, .inl rfl⟩

theorem inSlotOrder_slotNamesWith (dimension slot : Nat) :
    InSlotOrder dimension ((slotNamesWith "S" dimension slot "T").map named) := by
  have slots : (slotNamesWith "S" dimension slot "T").map named =
      (slotsDown dimension).map fun i => named ((if i = slot then "T" else "S") ++ toString i) := by
    rw [slotNamesWith, List.map_map]
    rfl
  rw [slots]
  refine inSlotOrder_map fun i => ⟨if i = slot then "T" else "S", ?_, .inl rfl⟩
  split <;> simp

theorem inSlotOrder_functions {base : String} (known : base ∈ ["F", "S", "T"]) (dimension : Nat)
    (trait output : String) :
    InSlotOrder dimension ((slotNames base dimension 1).map fun slot =>
      someFunction trait (named slot) (named output)) := by
  have slots : ((slotNames base dimension 1).map fun slot =>
      someFunction trait (named slot) (named output)) =
      (slotsDown dimension).map fun slot =>
        someFunction trait (named s!"{base}{slot}") (named output) := by
    rw [slotNames, List.map_map]
    rfl
  rw [slots]
  exact inSlotOrder_map fun slot => ⟨base, known, .inr ⟨trait, output, rfl⟩⟩

/-! ## Sums -/

@[simp] theorem argumentLists_type (dimension : Nat) (slots : List String) :
    (Sum.type dimension slots).argumentLists = [slots.map named] := by
  simp [Sum.type, appliedTo]

@[simp] theorem argumentLists_inCase (owner : String) (slot : Nat) (payload : Node) :
    (Sum.inCase owner slot payload).argumentLists = payload.argumentLists := by
  simp [Sum.inCase]

theorem argumentLists_byCase {body : Nat → Node} (plain : ∀ slot, (body slot).argumentLists = [])
    (subject owner payload : String) (dimension : Nat) :
    (Sum.byCase subject owner dimension payload body).argumentLists = [] := by
  simp [Sum.byCase, List.flatMap_map, plain]

theorem argumentLists_enumeration (dimension : Nat) :
    (Sum.enumeration dimension).argumentLists = [] := by
  simp [Sum.enumeration, List.flatMap_map]

theorem argumentLists_traitFor (names : List String) (trait : String) (type : Node) :
    (traitFor (some (parameters names)) (named trait) type []).argumentLists =
      type.argumentLists := by
  simp [traitFor]

theorem argumentLists_methodsOf (names : List String) (type : Node) (items : List Node) :
    (methodsOf (some (parameters names)) type items).argumentLists =
      type.argumentLists ++ items.flatMap argumentLists := by
  simp [methodsOf]

theorem argumentLists_allowingArguments (count : Nat) :
    (allowingArguments count).flatMap argumentLists = [] := by
  unfold allowingArguments
  split
  · simp
  · rfl

theorem argumentLists_caseFunction (dimension : Nat) :
    (Sum.caseFunction dimension).argumentLists =
      List.replicate 2 ((slotNames "S" dimension 1).map named) := by
  rw [Sum.caseFunction, argumentLists, collect_behind _ rfl (by simp [argumentLists_allowingArguments])]
  simp [List.flatMap_map, argumentLists_byCase]

theorem argumentLists_injectionItem (dimension slot : Nat) :
    (Sum.injectionItem dimension slot).argumentLists =
      List.replicate 2 ((slotNames "S" dimension 1).map named) := by
  simp [Sum.injectionItem]

theorem argumentLists_mapItem (dimension slot : Nat) :
    (Sum.mapItem dimension slot).argumentLists =
      [(slotNamesWith "S" dimension slot "T").map named] := by
  have plain (i : Nat) : (Sum.inCase (sumType dimension) i
      (if i = slot then call (named "f") [named "value"] false else named "value")).argumentLists =
      [] := by
    split <;> simp
  simp [Sum.mapItem, self, argumentLists_byCase plain]

/-- Every list of arguments in the code of a sum is in the order of the slots. -/
theorem inSlotOrder_sum {dimension : Nat} {place : Place} {file : File}
    (h : Sum.file dimension place = .ok file) {item : Node} (member : item ∈ file.items)
    {arguments : List Node} (listed : arguments ∈ item.argumentLists) :
    InSlotOrder dimension arguments := by
  obtain ⟨path, -, h⟩ := Outcome.bind_eq_ok_iff.1 h
  cases Outcome.pure_eq_ok_iff.1 h
  have slots := inSlotOrder_slotNames (by simp : "S" ∈ ["F", "S", "T"]) dimension
  simp only [List.mem_append, List.mem_cons, List.mem_map, List.not_mem_nil, or_false] at member
  obtain ((rfl | rfl | rfl | rfl) | ⟨slot, -, rfl⟩) | rfl := member
  · simp at listed
  · simp [argumentLists_enumeration] at listed
  · rw [argumentLists_traitFor, argumentLists_type, List.mem_singleton] at listed
    exact listed ▸ slots
  · rw [argumentLists_caseFunction] at listed
    exact List.eq_of_mem_replicate listed ▸ slots
  · rw [argumentLists_injectionItem] at listed
    exact List.eq_of_mem_replicate listed ▸ slots
  · rw [argumentLists_methodsOf, argumentLists_type, List.singleton_append, List.mem_cons,
      List.mem_flatMap] at listed
    obtain rfl | ⟨method, inside, listed⟩ := listed
    · exact slots
    · obtain ⟨slot, -, rfl⟩ := List.mem_map.1 inside
      rw [argumentLists_mapItem, List.mem_singleton] at listed
      exact listed ▸ inSlotOrder_slotNamesWith dimension slot

end Slotwise.Family
