import Slotwise.Proofs.Plan
/-!
# Capabilities of a request

A request selects dimensions for six capabilities. They differ in the kind of their places and in
the jobs that a dimension brings along, and in nothing else: what is chosen for one is the image of
its selection, and what is requested is requested by a capability or by a declaration.

Main statements: where choices come from (`chosen_iff`), what is requested (`requested_iff`), and
when all selections can be listed (`succeeds_familyJobs_iff`).
-/

namespace Slotwise

/-- What dimensions can be selected for. -/
inductive Capability where
  /-- Product families. -/
  | products
  /-- Sum families. -/
  | sums
  /-- Duality transforms. -/
  | dualities
  /-- Arithmetic of products. -/
  | arithmetics
  /-- Evolution of products. -/
  | evolvingProducts
  /-- Evolution of sums. -/
  | evolvingSums
deriving DecidableEq

namespace Request

variable {request : Request} {capability other : Capability} {asked : Option Selection}

/-- What is selected for a capability. -/
def selection (request : Request) : Capability → Option Selection
  | .products => request.products
  | .sums => request.sums
  | .dualities => request.dualities
  | .arithmetics => request.arithmetics
  | .evolvingProducts => request.evolvingProducts
  | .evolvingSums => request.evolvingSums

/-- The request with another selection for a capability. -/
def selecting (request : Request) (capability : Capability) (selection : Option Selection) :
    Request :=
  match capability with
  | .products => { request with products := selection }
  | .sums => { request with sums := selection }
  | .dualities => { request with dualities := selection }
  | .arithmetics => { request with arithmetics := selection }
  | .evolvingProducts => { request with evolvingProducts := selection }
  | .evolvingSums => { request with evolvingSums := selection }

@[simp] theorem selection_selecting :
    (request.selecting capability asked).selection capability = asked := by
  cases capability <;> rfl

theorem selection_selecting_of_ne (differ : other ≠ capability) :
    (request.selecting capability asked).selection other = request.selection other := by
  cases capability <;> cases other <;> first | rfl | exact absurd rfl differ

theorem mem_selections_iff {chosen : Selection} :
    chosen ∈ request.selections ↔ ∃ capability, request.selection capability = some chosen := by
  simp only [selections, List.mem_filterMap, List.mem_cons, List.not_mem_nil, or_false, id_eq,
    exists_eq_right]
  constructor
  · intro given
    rcases given with given | given | given | given | given | given
    · exact ⟨.products, given.symm⟩
    · exact ⟨.sums, given.symm⟩
    · exact ⟨.dualities, given.symm⟩
    · exact ⟨.arithmetics, given.symm⟩
    · exact ⟨.evolvingProducts, given.symm⟩
    · exact ⟨.evolvingSums, given.symm⟩
  · intro given
    obtain ⟨capability, given⟩ := given
    rw [← given]
    cases capability <;> simp [selection]

/-- What a request says beside its selections. -/
structure SameBeside (request other : Request) : Prop where
  /-- Both have the same output. -/
  output : other.output = request.output
  /-- Both force the same location onto selections. -/
  module : other.module = request.module
  /-- Both have the same key groups. -/
  keys : other.keys = request.keys
  /-- Both have the same records. -/
  records : other.records = request.records
  /-- Both have the same variant sets. -/
  variantSets : other.variantSets = request.variantSets

theorem sameBeside_selecting : SameBeside request (request.selecting capability asked) := by
  cases capability <;> exact ⟨rfl, rfl, rfl, rfl, rfl⟩

end Request

namespace Capability

/-- The kind of the places that are chosen for the capability. -/
def kind : Capability → Kind
  | products | arithmetics => .products
  | sums => .sums
  | dualities => .duality
  | evolvingProducts | evolvingSums => .evolution

/-- The jobs for a dimension at such a place. -/
def jobs : Capability → Nat → Place → List Job
  | products, dimension, place => [⟨.product dimension, place⟩]
  | sums, dimension, place => [⟨.sum dimension, place⟩]
  | dualities, dimension, place => Plan.dualityJobs dimension place
  | arithmetics, dimension, place => Plan.arithmeticJobs dimension place
  | evolvingProducts, dimension, place => Plan.evolvingProductJobs dimension place
  | evolvingSums, dimension, place => Plan.evolvingSumJobs dimension place

end Capability

namespace Plan

variable {request : Request} {capability : Capability}

/-! ## Choices -/

/-- The dimension is chosen for the capability at the place. -/
def Chosen (request : Request) (capability : Capability) (dimension : Nat) (place : Place) : Prop :=
  ∃ choices, selected request capability.kind (request.selection capability) = .ok choices ∧
    (dimension, place) ∈ choices

/-- A selection can be listed if it can be simplified, at places of any kind. -/
theorem succeeds_selected_iff {kind : Kind} {asked : Option Selection} :
    Outcome.Succeeds (selected request kind asked) ↔
      ∀ selection, asked = some selection → Outcome.Succeeds selection.simplify := by
  cases asked with
  | none =>
    constructor
    · intro _ selection given
      cases given
    · intro _
      exact ⟨[], rfl⟩
  | some selection =>
    have listed : Outcome.Succeeds (selected request kind (some selection)) ↔
        Outcome.Succeeds selection.simplify := by
      simp only [selected, Selection.simplify_modularize]
      cases selection.simplify with
      | error e =>
        constructor
        · intro found
          obtain ⟨_, found⟩ := found
          cases found
        · intro found
          obtain ⟨_, found⟩ := found
          cases found
      | ok choices => exact iff_of_true ⟨_, rfl⟩ ⟨_, rfl⟩
    rw [listed]
    constructor
    · intro succeeds other same
      cases same
      exact succeeds
    · intro each
      exact each selection rfl

/-- What is chosen for a capability comes from its selection, at the place that its choices name
when the request has forced its location onto them. -/
theorem chosen_iff {dimension : Nat} {place : Place} :
    Chosen request capability dimension place ↔
      ∃ selection choices, request.selection capability = some selection ∧
        selection.simplify = .ok choices ∧ ∃ choice ∈ choices, dimension = choice.dimension ∧
          place = familyPlace request capability.kind
            (choice.location.overriddenBy request.module) := by
  cases given : request.selection capability with
  | none =>
    constructor
    · intro chosen
      obtain ⟨listed, found, member⟩ := chosen
      rw [given] at found
      cases found
      cases member
    · intro named
      obtain ⟨_, _, asked, -⟩ := named
      cases asked
  | some selection =>
    simp only [Chosen, given, selected, Selection.simplify_modularize]
    cases simplified : selection.simplify with
    | error e =>
      constructor
      · intro chosen
        obtain ⟨_, found, -⟩ := chosen
        cases found
      · intro named
        obtain ⟨_, choices, same, found, -⟩ := named
        cases same
        cases simplified.symm.trans found
    | ok choices =>
      have members : ∀ choice, choice ∈ Ordered.sortedSet Choice.compare
          (choices.map (·.overriddenBy request.module)) ↔
            ∃ own ∈ choices, own.overriddenBy request.module = choice := by
        intro choice
        rw [Ordered.mem_sortedSet_iff fun _ _ _ _ => Choice.eq_of_compare, List.mem_map]
      constructor
      · intro chosen
        obtain ⟨listed, found, member⟩ := chosen
        cases found
        obtain ⟨choice, inside, same⟩ := List.mem_map.1 member
        obtain ⟨own, among, rfl⟩ := (members choice).1 inside
        cases same
        exact ⟨selection, choices, rfl, simplified, own, among, rfl, rfl⟩
      · intro named
        obtain ⟨_, _, same, found, own, among, rfl, rfl⟩ := named
        cases same
        cases simplified.symm.trans found
        exact ⟨_, rfl, List.mem_map.2 ⟨_, (members _).2 ⟨own, among, rfl⟩, rfl⟩⟩

/-! ## Requested jobs -/

/-- The jobs that are requested by declarations: key groups, records and variant sets. -/
inductive ForDeclaration (request : Request) : Job → Prop where
  /-- A key group. -/
  | keys {jobs : List Job} {job : Job} (kept : keyJobs request = .ok jobs) (among : job ∈ jobs) :
      ForDeclaration request job
  /-- A job for a record. -/
  | lens {index : Nat} {record : Record} {job : Job}
      (found : request.records[index]? = some record)
      (among : job ∈ lensJobs request record index) : ForDeclaration request job
  /-- A job for a variant set. -/
  | prism {index : Nat} {set : VariantSet} {job : Job}
      (found : request.variantSets[index]? = some set)
      (among : job ∈ prismJobs request set index) : ForDeclaration request job

/-- A job is requested for what is chosen for a capability, or by a declaration. -/
theorem requested_iff {job : Job} :
    Requested request job ↔
      (∃ capability dimension place, Chosen request capability dimension place ∧
        job ∈ capability.jobs dimension place) ∨ ForDeclaration request job := by
  constructor
  · intro requested
    cases requested with
    | product chosen member =>
      exact .inl ⟨.products, _, _, ⟨_, chosen, member⟩, List.mem_singleton_self _⟩
    | sum chosen member =>
      exact .inl ⟨.sums, _, _, ⟨_, chosen, member⟩, List.mem_singleton_self _⟩
    | arithmetic chosen member among =>
      exact .inl ⟨.arithmetics, _, _, ⟨_, chosen, member⟩, among⟩
    | duality chosen member among =>
      exact .inl ⟨.dualities, _, _, ⟨_, chosen, member⟩, among⟩
    | evolvingProduct chosen member among =>
      exact .inl ⟨.evolvingProducts, _, _, ⟨_, chosen, member⟩, among⟩
    | evolvingSum chosen member among =>
      exact .inl ⟨.evolvingSums, _, _, ⟨_, chosen, member⟩, among⟩
    | keys kept among => exact .inr (.keys kept among)
    | lens found among => exact .inr (.lens found among)
    | prism found among => exact .inr (.prism found among)
  · intro origin
    rcases origin with chosen | declared
    · obtain ⟨capability, dimension, place, ⟨choices, chosen, member⟩, among⟩ := chosen
      cases capability with
      | products =>
        cases List.mem_singleton.1 among
        exact .product chosen member
      | sums =>
        cases List.mem_singleton.1 among
        exact .sum chosen member
      | dualities => exact .duality chosen member among
      | arithmetics => exact .arithmetic chosen member among
      | evolvingProducts => exact .evolvingProduct chosen member among
      | evolvingSums => exact .evolvingSum chosen member among
    · cases declared with
      | keys kept among => exact .keys kept among
      | lens found among => exact .lens found among
      | prism found among => exact .prism found among

/-- The jobs for selections can be listed if each selection can be. -/
theorem succeeds_familyJobs_iff :
    Outcome.Succeeds (familyJobs request) ↔
      ∀ selection ∈ request.selections, Outcome.Succeeds selection.simplify := by
  have each : (∀ selection ∈ request.selections, Outcome.Succeeds selection.simplify) ↔
      ∀ capability : Capability, Outcome.Succeeds
        (selected request capability.kind (request.selection capability)) := by
    simp only [succeeds_selected_iff, Request.mem_selections_iff, forall_exists_index]
    exact forall_comm
  rw [each, familyJobs]
  constructor
  · intro succeeds
    simp only [Outcome.succeeds_bind_iff] at succeeds
    obtain ⟨products, hp, sums, hs, arithmetics, ha, dualities, hd, evolvingProducts, hep,
      evolvingSums, hes, -⟩ := succeeds
    intro capability
    cases capability
    · exact ⟨_, hp⟩
    · exact ⟨_, hs⟩
    · exact ⟨_, hd⟩
    · exact ⟨_, ha⟩
    · exact ⟨_, hep⟩
    · exact ⟨_, hes⟩
  · intro succeed
    obtain ⟨products, hp⟩ := succeed .products
    obtain ⟨sums, hs⟩ := succeed .sums
    obtain ⟨arithmetics, ha⟩ := succeed .arithmetics
    obtain ⟨dualities, hd⟩ := succeed .dualities
    obtain ⟨evolvingProducts, hep⟩ := succeed .evolvingProducts
    obtain ⟨evolvingSums, hes⟩ := succeed .evolvingSums
    simp only [Outcome.succeeds_bind_iff]
    exact ⟨products, hp, sums, hs, arithmetics, ha, dualities, hd, evolvingProducts, hep,
      evolvingSums, hes, Outcome.succeeds_pure _⟩

end Plan

end Slotwise
