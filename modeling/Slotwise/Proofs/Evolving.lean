import Slotwise.Family.Evolution
import Slotwise.Proofs.Dimensions
import Slotwise.Proofs.Records
/-!
# Evolution, slot by slot

An evolver makes a future of the value in its slot. The functions that apply evolvers and await
futures keep to the slots: what comes of component `i` is what evolver `i` makes of it, once it is
there. The futures of a product are awaited from the highest slot down, one declaration after the
other, so a future that is not ready keeps all lower ones from being awaited
(`progress_of_blocked`).

Main statement: the files of the evolution of products and of sums go slot by slot
(`evolution_of_files`).
-/

namespace Slotwise.Code

open Naming

/-! ## Clauses -/

namespace Node

/-- A parameter that is a future, and the parameter for what it yields. -/
def yields? : Node → Option (String × String)
  | predicate none (path false [segment future none])
      [bound false false none (path false [segment "Future" (some (angled false
        [associated "Output" none (path false [segment output none])] false))])] =>
    some (withoutRawMark future, withoutRawMark output)
  | _ => none

/-- A parameter that is a future. -/
def future? : Node → Option String
  | predicate none (path false [segment future none])
      [bound false false none (path false [segment "Future" none])] =>
    some (withoutRawMark future)
  | _ => none

/-- The predicates of a clause. -/
def predicates? : Node → Option (List Node)
  | whereClause predicates _ => some predicates
  | _ => none

theorem reader_awaited? : Reader awaited? := by
  constructor <;> intros <;> rfl

end Node

/-! ## Declarations one after the other -/

section Progress

variable {Data : Type} (world : World Data) (owner : String)

/-- How many declarations are through before one whose value is not there. -/
noncomputable def progress : Variables Data → List Node → Nat
  | scope, .letStatement pattern (some subject) none :: rest =>
    match (eval world owner scope subject).bind (matchPattern owner pattern) with
    | some (some bound) => progress (bound ++ scope) rest + 1
    | _ => 0
  | _, _ => 0

variable {world owner} {scope : Variables Data}

theorem progress_letIs {name : String} {subject : Node} {value : Value Data}
    (valueIs : eval world owner scope subject = some value) (rest : List Node) :
    progress world owner scope (.letIs name subject :: rest) =
      progress world owner ((withoutRawMark name, value) :: scope) rest + 1 := by
  rw [Node.letIs, progress, valueIs, Option.bind_some, matchPattern_binding]
  rfl

theorem progress_blocked {name : String} {subject : Node}
    (absent : eval world owner scope subject = none) (rest : List Node) :
    progress world owner scope (.letIs name subject :: rest) = 0 := by
  rw [Node.letIs, progress, absent, Option.bind_none]

end Progress

/-! ## Struct literals of variables -/

section Literals

variable {Data : Type} {world : World Data} {owner : String} {scope : Variables Data}

/-- A struct literal whose fields are variables of the same names. -/
theorem eval_variables {ι : Type} (xs : List ι) (field : ι → String) (value : ι → Value Data)
    (subject : Node) (comma : Bool) {names : List String} (spelled : subject.names? = some names)
    (once : (xs.map fun x => withoutRawMark (field x)).Nodup)
    (each : ∀ x ∈ xs, scope.lookup (withoutRawMark (field x)) = some (value x)) :
    eval world owner scope (.fields subject (xs.map fun x => .named (field x)) comma) =
      some (.record (Node.resolve owner names)
        (xs.map fun x => (withoutRawMark (field x), value x))) := by
  have plain : ∀ item ∈ xs.map fun x => Node.named (field x), item.baseOfLiteral? = none := by
    intro item member
    obtain ⟨x, -, rfl⟩ := List.mem_map.1 member
    rfl
  have noBase : (xs.map fun x => Node.named (field x)).findSome? Node.baseOfLiteral? = none :=
    List.findSome?_eq_none_iff.2 plain
  have all : (xs.map fun x => Node.named (field x)).filter
      (fun item => item.baseOfLiteral?.isNone) = xs.map fun x => Node.named (field x) :=
    List.filter_eq_self.2 fun item member => by rw [plain item member]; rfl
  have given : givenWith (eval world) owner scope (xs.map fun x => .named (field x)) =
      some (xs.map fun x => (withoutRawMark (field x), value x)) := by
    rw [givenWith, all, List.mapM_map]
    refine Outcome.mapM_eq_some_map fun x member => ?_
    have content : (Node.named (field x)).fieldContent = .named (field x) := rfl
    rw [Function.comp_apply, content, eval_named, each x member]
    rfl
  have keys : ((xs.map fun x => (withoutRawMark (field x), value x)).map Prod.fst).Nodup := by
    simpa [List.map_map, Function.comp_def] using once
  rw [eval_struct spelled, given, Option.bind_some, if_pos keys, noBase]

end Literals

end Slotwise.Code

namespace Slotwise.Family

open Code Naming

variable {dimension : Nat}

theorem slotsDown_succ (dimension : Nat) :
    slotsDown (dimension + 1) = (dimension + 1) :: slotsDown dimension := by
  rw [slotsDown, List.range'_concat, List.reverse_append, List.reverse_singleton,
    List.singleton_append, slotsDown, Nat.one_mul, Nat.add_comm 1]

/-! ## Evolvers and futures in slots -/

/-- The parameters for futures yield those for values, slot by slot. -/
def Ties (dimension : Nat) (definition : Definition) : Prop :=
  ∃ predicates, definition.clause.bind Node.predicates? = some predicates ∧
    Slotted dimension (predicates.map Node.yields?) fun i => some (s!"V{i}", s!"T{i}")

/-- The parameters for futures are futures, slot by slot. -/
def AllFutures (dimension : Nat) (definition : Definition) : Prop :=
  ∃ predicates, definition.clause.bind Node.predicates? = some predicates ∧
    Slotted dimension (predicates.map Node.future?) fun i => some s!"V{i}"

/-- A function applies evolvers to a product or a sum, which is `subject` of the type `owner`. -/
structure Takes (dimension : Nat) (subject owner : String) (definition : Definition) : Prop where
  /-- The evolver of a slot goes from the value of the slot to its future. -/
  inputs : ∃ evolvers whole, definition.routine.inputs =
      [.input "evolvers" evolvers, .input subject whole] ∧
    Fills (productType dimension) dimension
      (fun i => .someFunction "FnOnce" (.named s!"T{i}") (.named s!"V{i}")) evolvers ∧
    Fills owner dimension (fun i => .named s!"T{i}") whole
  /-- The result has the futures in the slots of their values. -/
  output : ∃ futures, definition.output = some futures ∧
    Fills owner dimension (fun i => .named s!"V{i}") futures
  /-- The future of a slot yields the value of the slot. -/
  bounds : Ties dimension definition

/-- A function awaits the futures of a product or a sum, which is `subject` of the type `owner`. -/
structure Awaits (dimension : Nat) (subject owner : String) (definition : Definition) : Prop where
  /-- The function gives a future itself. -/
  isAsync : definition.routine.isAsync = true
  /-- There is a future in each slot. -/
  inputs : ∃ futures, definition.routine.inputs = [.input subject futures] ∧
    Fills owner dimension (fun i => .named s!"V{i}") futures
  /-- The result has what the futures yield in their slots. -/
  output : ∃ outputs, definition.output = some outputs ∧
    Fills owner dimension (fun i => .namedAlong [s!"V{i}", "Output"]) outputs
  /-- The future of a slot is one. -/
  bounds : AllFutures dimension definition

/-- A function applies an evolver to each component of a product. -/
structure EvolvesProduct (dimension : Nat) (definition : Definition) : Prop where
  /-- Evolvers and values come slot by slot. -/
  takes : Takes dimension "product" (productType dimension) definition
  /-- Each component of the result is what the evolver of the slot makes of the value there. -/
  literal : Makes dimension (fun i =>
    .call (.paren (.member (.named "evolvers") (factor i)))
      [.member (.named "product") (factor i)] false) definition.routine
  /-- Each evolver is used once. -/
  evolvers : Slotted dimension ((definition.routine.collect Node.read?).filter
    (·.1 == "evolvers")) fun i => ("evolvers", factor i)
  /-- Each component is used once. -/
  components : Slotted dimension ((definition.routine.collect Node.read?).filter
    (·.1 == "product")) fun i => ("product", factor i)

/-- A function awaits each component of a product. -/
structure AwaitsProduct (dimension : Nat) (definition : Definition) : Prop where
  /-- Futures come slot by slot. -/
  awaits : Awaits dimension "product" (productType dimension) definition
  /-- The components are awaited from the highest slot down, each of them once. -/
  order : Slotted dimension (definition.routine.collect Node.awaited?) fun i =>
    .member (.named "product") (factor i)
  /-- Each component is used once. -/
  components : Slotted dimension (definition.routine.collect Node.read?) fun i =>
    ("product", factor i)
  /-- What is awaited comes in the same slot. -/
  literal : Makes dimension (fun i => .named (factor i)) definition.routine
  /-- A future that is not ready keeps those of lower slots waiting. -/
  waits : ∀ {Data : Type} (world : World Data) (future : Nat → Value Data) (slot : Nat),
    1 ≤ slot → slot ≤ dimension →
    (∀ i, slot < i → i ≤ dimension → (await world (future i)).isSome) →
    await world (future slot) = none →
      progress world "" [("product", productOf dimension future)] definition.routine.body =
        dimension - slot

/-- A function applies the evolver of its case to a sum. -/
structure EvolvesSum (dimension : Nat) (definition : Definition) : Prop where
  /-- Evolvers and values come slot by slot. -/
  takes : Takes dimension "sum" (sumType dimension) definition
  /-- The arm of each case uses the evolver of its slot once, and no other one. -/
  evolvers : Chooses dimension "" Node.read? (fun i => [("evolvers", factor i)])
    definition.routine

/-- A function awaits what is in the case of a sum. -/
structure AwaitsSum (dimension : Nat) (definition : Definition) : Prop where
  /-- Futures come slot by slot. -/
  awaits : Awaits dimension "sum" (sumType dimension) definition
  /-- The arm of each case awaits the future in it once, and nothing else. -/
  once : Chooses dimension "" Node.awaited? (fun _ => [.named "future"]) definition.routine

/-- The declarations that await the components of a product. -/
def awaiting (dimension : Nat) : List Node :=
  (slotsDown dimension).map fun slot =>
    .letIs (factor slot) (.await (.member (.named "product") (factor slot)))

section Running

variable {Data : Type} {world : World Data} {scope : Variables Data}

theorem eval_awaited {future : Nat → Value Data} {slot : Nat}
    (productIs : scope.lookup "product" = some (productOf dimension future))
    (positive : 1 ≤ slot) (below : slot ≤ dimension) :
    eval world "" scope (.await (.member (.named "product") (factor slot))) =
      await world (future slot) := by
  have component : eval world "" scope (.member (.named "product") (factor slot)) =
      some (future slot) := by
    refine eval_factor ?_ positive below
    rwa [eval_named, withoutRawMark_of_not_mem (by decide)]
  rw [eval_await, component, Option.bind_some]

theorem factor_ne {name : String} (other : name.toList.head? ≠ some 'f') (slot : Nat) :
    name ≠ factor slot :=
  (numbered_ne_name (fun same => other same.symm) (by decide) slot).symm

/-- A declaration for a slot leaves the product as it is. -/
theorem lookup_product {future : Nat → Value Data}
    (productIs : scope.lookup "product" = some (productOf dimension future)) (slot : Nat)
    (value : Value Data) :
    ((withoutRawMark (factor slot), value) :: scope).lookup "product" =
      some (productOf dimension future) := by
  rw [withoutRawMark_factor, lookup_cons_of_ne (factor_ne (by decide) slot), productIs]

/-- All futures up to a slot are awaited, and each declares the variable of its slot. -/
theorem run_awaiting {future result : Nat → Value Data} {rest : List Node} (more : rest ≠ [])
    {height : Nat} (within : height ≤ dimension)
    (productIs : scope.lookup "product" = some (productOf dimension future))
    (ready : ∀ i, 1 ≤ i → i ≤ height → await world (future i) = some (result i)) :
    run world "" scope (awaiting height ++ rest) =
      run world "" (((slotsDown height).map fun i => (factor i, result i)).reverse ++ scope)
        rest := by
  -- a declaration adds a variable to those the later ones see, and hides the product from none
  induction height generalizing scope with
  | zero => rfl
  | succ height ih =>
    have awaited : eval world "" scope
        (.await (.member (.named "product") (factor (height + 1)))) =
        some (result (height + 1)) := by
      rw [eval_awaited productIs (Nat.succ_pos height) within,
        ready _ (Nat.succ_pos height) (Nat.le_refl _)]
    rw [awaiting, slotsDown_succ, List.map_cons, List.cons_append,
      run_letIs awaited (by simp [more]), withoutRawMark_factor]
    have later := ih (Nat.le_of_succ_le within)
      (lookup_product productIs (height + 1) (result (height + 1)))
      fun i positive below => ready i positive (Nat.le_succ_of_le below)
    rw [withoutRawMark_factor] at later
    rw [← awaiting, later]
    simp

/-- The first future from the top that is not ready is where awaiting stops. -/
theorem progress_of_blocked {future : Nat → Value Data} {slot height : Nat} (positive : 1 ≤ slot)
    (below : slot ≤ height) (within : height ≤ dimension)
    (productIs : scope.lookup "product" = some (productOf dimension future))
    (ready : ∀ i, slot < i → i ≤ height → (await world (future i)).isSome)
    (absent : await world (future slot) = none) (rest : List Node) :
    progress world "" scope (awaiting height ++ rest) = height - slot := by
  induction height generalizing scope with
  | zero => omega
  | succ height ih =>
    have awaited := @eval_awaited dimension Data world scope future (height + 1) productIs
      (Nat.succ_pos height) within
    rw [awaiting, slotsDown_succ, List.map_cons, List.cons_append]
    -- the declaration for the slot itself stops, and one above it is through
    by_cases here : slot = height + 1
    · subst here
      rw [progress_blocked (awaited.trans absent), Nat.sub_self]
    · obtain ⟨value, valueIs⟩ := Option.isSome_iff_exists.1
        (ready (height + 1) (by omega) (Nat.le_refl _))
      have later := ih (by omega) (Nat.le_of_succ_le within)
        (lookup_product productIs (height + 1) value)
        fun i above inside => ready i above (Nat.le_succ_of_le inside)
      rw [progress_letIs (awaited.trans valueIs), ← awaiting, later]
      omega

theorem map_named_factors (dimension : Nat) : (Product.factors dimension).map Node.named =
    (slotsDown dimension).map fun slot => .named (factor slot) := by
  rw [Product.factors, slotNames_eq, List.map_map]
  rfl

theorem eval_valueOfFactors {value : Nat → Value Data}
    (each : ∀ slot ∈ slotsDown dimension, scope.lookup (factor slot) = some (value slot)) :
    eval world "" scope (Product.valueOfFactors dimension) = some (productOf dimension value) := by
  have once : ((slotsDown dimension).map fun slot => withoutRawMark (factor slot)).Nodup := by
    simpa using (nodup_slotsDown dimension).map factor_injective
  rw [Product.valueOfFactors, map_named_factors,
    eval_variables (slotsDown dimension) factor value _ false (Node.names?_named _) once
      fun slot member => by rw [withoutRawMark_factor, each slot member]]
  simp [productOf]

end Running

/-! ## Signatures -/

theorem withoutRawMark_value (slot : Nat) : withoutRawMark s!"T{slot}" = s!"T{slot}" :=
  withoutRawMark_numbered "T" (by decide) slot

theorem withoutRawMark_future (slot : Nat) : withoutRawMark s!"V{slot}" = s!"V{slot}" :=
  withoutRawMark_numbered "V" (by decide) slot

theorem definition?_evolve (name subject owner : String) (dimension : Nat) (body : Node) :
    (Evolution.evolve name subject owner dimension body).definition? =
      some ⟨⟨withoutRawMark name, false, [.input "evolvers" (Evolution.evolvers dimension),
        .input subject (.appliedTo owner (slotNames "T" dimension 1))], [body]⟩,
        some (.appliedTo owner (slotNames "V" dimension 1)),
        some (Evolution.evolvedClause dimension)⟩ := rfl

theorem definition?_await (name subject owner : String) (dimension : Nat) (body : List Node) :
    (Evolution.await name subject owner dimension body).definition? =
      some ⟨⟨withoutRawMark name, true,
        [.input subject (.appliedTo owner (slotNames "V" dimension 1))], body⟩,
        some (.applied owner (Evolution.outputs dimension)),
        some (Evolution.futureClause dimension)⟩ := rfl

theorem takes_evolve {name subject owner : String} (plain : withoutRawMark owner = owner)
    {body : Node} {definition : Definition}
    (defines : (Evolution.evolve name subject owner dimension body).definition? =
      some definition) : Takes dimension subject owner definition := by
  cases defines
  refine ⟨⟨_, _, rfl, fills_applied (withoutRawMark_productType dimension) _,
    fills_slotNames plain "T"⟩, ⟨_, rfl, fills_slotNames plain "V"⟩, _, rfl, ?_⟩
  have each (slot : Nat) : (Node.predicate none (.named s!"V{slot}")
      [.boundWith "Future" "Output" (.named s!"T{slot}")]).yields? =
      some (s!"V{slot}", s!"T{slot}") := by
    have read : (Node.predicate none (.named s!"V{slot}")
        [.boundWith "Future" "Output" (.named s!"T{slot}")]).yields? =
        some (withoutRawMark s!"V{slot}", withoutRawMark s!"T{slot}") := rfl
    rw [read, withoutRawMark_future, withoutRawMark_value]
  rw [List.map_map]
  simp only [Function.comp_def, each]
  exact slotted_map dimension _

theorem awaits_await {name subject owner : String} (plain : withoutRawMark owner = owner)
    {body : List Node} {definition : Definition}
    (defines : (Evolution.await name subject owner dimension body).definition? =
      some definition) : Awaits dimension subject owner definition := by
  cases defines
  refine ⟨rfl, ⟨_, rfl, fills_slotNames plain "V"⟩, ⟨_, rfl, ?_⟩, _, rfl, ?_⟩
  · rw [Evolution.outputs, slotNames_eq, List.map_map]
    exact fills_applied plain _
  · have each (slot : Nat) : (Node.predicate none (.named s!"V{slot}")
        [.traitBound (.named "Future")]).future? = some s!"V{slot}" := by
      have read : (Node.predicate none (.named s!"V{slot}")
          [.traitBound (.named "Future")]).future? = some (withoutRawMark s!"V{slot}") := rfl
      rw [read, withoutRawMark_future]
    rw [List.map_map]
    simp only [Function.comp_def, each]
    exact slotted_map dimension _

/-! ## Products -/

/-- What the evolver of a slot makes of the value there. -/
def evolvedFactor (slot : Nat) : Node :=
  Evolution.evolved slot (.member (.named "product") (factor slot))

theorem reads_evolvedFactor (slot : Nat) : (evolvedFactor slot).collect Node.read? =
    [("evolvers", factor slot), ("product", factor slot)] := by
  simp [evolvedFactor, Evolution.evolved, Node.read?, Node.named]

theorem evolvesProduct_evolve {name : String} {definition : Definition}
    (defines : (Evolution.evolve name "product" (productType dimension) dimension
      (Product.value dimension evolvedFactor)).definition? = some definition) :
    EvolvesProduct dimension definition := by
  have takes := takes_evolve (withoutRawMark_productType dimension) defines
  cases defines
  have literal (slot : Nat) : (evolvedFactor slot).collect Node.literal? = [] := by
    simp [evolvedFactor, Evolution.evolved, Node.literal?, Node.named]
  refine ⟨takes, makes_value (Routine.collect_mk _ _ _ _ _) literal, ?_, ?_⟩
  · rw [Routine.collect_mk, Node.collect_value Node.reader_read?, List.filter_append,
      List.filter_flatMap]
    exact slotted_flatMap fun slot => by rw [reads_evolvedFactor]; rfl
  · rw [Routine.collect_mk, Node.collect_value Node.reader_read?, List.filter_append,
      List.filter_flatMap]
    exact slotted_flatMap fun slot => by rw [reads_evolvedFactor]; rfl

theorem collect_valueOfFactors {α : Type} {f : Node → Option α} (reader : Node.Reader f)
    (dimension : Nat) : (Product.valueOfFactors dimension).collect f =
      (f (Product.valueOfFactors dimension)).toList := by
  simp [Product.valueOfFactors, Node.collect_named reader, List.flatMap_map]

theorem literal?_valueOfFactors (dimension : Nat) :
    (Product.valueOfFactors dimension).literal? = some (some [productType dimension],
      (slotsDown dimension).map fun slot => (some (factor slot), .named (factor slot))) := by
  have entry (slot : Nat) : ((Node.named (factor slot)).fieldName?,
      (Node.named (factor slot)).fieldContent) = (some (factor slot), .named (factor slot)) :=
    congrArg (fun name => (some name, Node.named (factor slot))) (withoutRawMark_factor slot)
  rw [Product.valueOfFactors, map_named_factors, Node.literal?, Node.names?_named,
    withoutRawMark_productType, List.map_map]
  simp only [Function.comp_def, entry]

/-- All is found in what is awaited, and in the product at the end. -/
theorem collect_awaiting {α : Type} {f : Node → Option α} (reader : Node.Reader f)
    (declared : ∀ pattern value otherwise, f (.letStatement pattern value otherwise) = none)
    (name : String) (isAsync : Bool) (inputs : List Node) (dimension : Nat) :
    Routine.collect f
        ⟨name, isAsync, inputs, awaiting dimension ++ [Product.valueOfFactors dimension]⟩ =
      ((slotsDown dimension).flatMap fun slot =>
        (Node.await (.member (.named "product") (factor slot))).collect f) ++
          (f (Product.valueOfFactors dimension)).toList := by
  rw [Routine.collect, List.flatMap_append, List.flatMap_singleton, collect_valueOfFactors reader,
    awaiting, List.flatMap_map]
  simp [Node.letIs, declared, Node.collect_binding reader]

theorem awaitsProduct_await {name : String} {definition : Definition}
    (defines : (Evolution.await name "product" (productType dimension) dimension
      (awaiting dimension ++ [Product.valueOfFactors dimension])).definition? =
        some definition) : AwaitsProduct dimension definition := by
  have awaits := awaits_await (withoutRawMark_productType dimension) defines
  cases defines
  refine ⟨awaits, ?_, ?_, ⟨_, ?_, slotted_map dimension _⟩, fun world future slot positive below
    ready absent => progress_of_blocked positive below (Nat.le_refl dimension) (by simp) ready
      absent _⟩
  · rw [collect_awaiting Node.reader_awaited? (fun _ _ _ => rfl)]
    have none : (Product.valueOfFactors dimension).awaited? = none := rfl
    rw [none, Option.toList_none, List.append_nil]
    exact slotted_flatMap fun slot => by simp [Node.named]
  · rw [collect_awaiting Node.reader_read? (fun _ _ _ => rfl)]
    have none : (Product.valueOfFactors dimension).read? = none := rfl
    rw [none, Option.toList_none, List.append_nil]
    exact slotted_flatMap fun slot => by simp [Node.read?, Node.named]
  · rw [collect_awaiting Node.reader_literal? (fun _ _ _ => rfl)]
    have plain (slot : Nat) : (Node.await (.member (.named "product") (factor slot))).collect
        Node.literal? = [] := by
      simp [Node.literal?, Node.named]
    have none : ((slotsDown dimension).flatMap fun slot =>
        (Node.await (.member (.named "product") (factor slot))).collect Node.literal?) = [] :=
      List.flatMap_eq_nil_iff.2 fun slot _ => plain slot
    rw [none, List.nil_append, literal?_valueOfFactors, Option.toList_some]

/-- The future of a product yields what its futures yield. -/
theorem call_get {Data : Type} {world : World Data} {future result : Nat → Value Data}
    (ready : ∀ i, 1 ≤ i → i ≤ dimension → await world (future i) = some (result i))
    (name : String) (type : Node) :
    (call world "" ⟨name, true, [.input "product" type],
      awaiting dimension ++ [Product.valueOfFactors dimension]⟩
        [productOf dimension future]).bind (await world) = some (productOf dimension result) := by
  have inputs : bindInputs "" [.input "product" type] [productOf dimension future] =
      some [("product", productOf dimension future)] := by simp
  have found : ∀ slot ∈ slotsDown dimension,
      (((slotsDown dimension).map fun i => (factor i, result i)).reverse ++
        [("product", productOf dimension future)]).lookup (factor slot) =
          some (result slot) := by
    intro slot member
    -- the last declarations are found first, but no two of them have one name
    have own : ((slotsDown dimension).reverse.map fun i => (factor i, result i)).lookup
        (factor slot) = some (result slot) :=
      lookup_numbered (List.nodup_reverse.2 (nodup_slotsDown dimension)) result
        (List.mem_reverse.2 member)
    rw [List.lookup_append, ← List.map_reverse, own, Option.some_or]
  rw [call_routine inputs, if_pos rfl, Option.bind_some, await_pending,
    run_awaiting (by simp) (Nat.le_refl dimension) (by simp) ready, run_singleton]
  exact eval_valueOfFactors found

theorem call_evolve {Data : Type} {world : World Data} {evolver value future : Nat → Value Data}
    (evolves : ∀ i, 1 ≤ i → i ≤ dimension →
      apply world (evolver i) [value i] = some (future i)) (name : String) (evolvers whole : Node) :
    call world "" ⟨name, false, [.input "evolvers" evolvers, .input "product" whole],
      [Product.value dimension evolvedFactor]⟩
        [productOf dimension evolver, productOf dimension value] =
      some (productOf dimension future) := by
  let scope : Variables Data :=
    [("evolvers", productOf dimension evolver), ("product", productOf dimension value)]
  have inputs : bindInputs "" [.input "evolvers" evolvers, .input "product" whole]
      [productOf dimension evolver, productOf dimension value] = some scope := by
    simp [scope]
  rw [call_routine inputs]
  simp only [Bool.false_eq_true, if_false, run_singleton]
  refine eval_productLiteral (fun i positive below => ?_) true
  have functionIs : eval world "" scope (.paren (.member (.named "evolvers") (factor i))) =
      some (evolver i) := by
    rw [eval_paren]
    exact eval_factor (by simp [scope]) positive below
  have valueIs : eval world "" scope (.member (.named "product") (factor i)) = some (value i) :=
    eval_factor (by simp [scope, List.lookup_cons]) positive below
  exact (eval_call_value rfl functionIs (by simp [valueIs]) false).trans
    (evolves i positive below)

/-- The file of the evolution of products has one function that applies evolvers and one that awaits
futures. One after the other they put what the future that an evolver makes of a component yields in
place of the component. -/
def ProductEvolution (dimension : Nat) (file : File) : Prop :=
  ∃ evolve get, Only file.definitions s!"evolve_product{dimension}" evolve ∧
    Only file.definitions s!"get_product{dimension}" get ∧
    EvolvesProduct dimension evolve ∧ AwaitsProduct dimension get ∧
    ∀ {Data : Type} (world : World Data) (evolver value result : Nat → Value Data),
      (∀ i, 1 ≤ i → i ≤ dimension →
        (apply world (evolver i) [value i]).bind (await world) = some (result i)) →
      ((call world "" evolve.routine [productOf dimension evolver, productOf dimension value]).bind
        fun futures => (call world "" get.routine [futures]).bind (await world)) =
          some (productOf dimension result)

/-- Two functions of different names are all that a file defines. -/
theorem only_of_pair {file : File} {uses docs docs' : List Node} {evolve get : Node}
    (items : file.items = uses ++ [Node.attributed docs evolve, Node.attributed docs' get])
    (plain : uses.filterMap Node.definition? = []) {first second : Definition}
    (firstIs : evolve.definition? = some first) (secondIs : get.definition? = some second)
    {firstName secondName : String} (firstNamed : first.routine.name = firstName)
    (secondNamed : second.routine.name = secondName) (different : firstName ≠ secondName) :
    Only file.definitions firstName first ∧ Only file.definitions secondName second := by
  have firstItem : (Node.attributed docs evolve).definition? = some first := firstIs
  have secondItem : (Node.attributed docs' get).definition? = some second := secondIs
  have definitions : file.definitions = [first, second] := by
    rw [File.definitions, items, List.filterMap_append, plain, List.nil_append,
      List.filterMap_cons_some firstItem, List.filterMap_cons_some secondItem, List.filterMap_nil]
  subst firstNamed secondNamed
  rw [definitions, Only, Only]
  simp [different, different.symm]

theorem items_of_productFile {products : Place} {file : File}
    (h : Evolution.productFile dimension products = .ok file) :
    ∃ path docs docs', file.items =
      [Node.importing ["std", "future", "Future"], Node.importing path] ++
      [Node.attributed docs (Evolution.evolve s!"evolve_product{dimension}" "product"
          (productType dimension) dimension (Product.value dimension evolvedFactor)),
        Node.attributed docs' (Evolution.await s!"get_product{dimension}" "product"
          (productType dimension) dimension
          (awaiting dimension ++ [Product.valueOfFactors dimension]))] := by
  obtain ⟨path, -, h⟩ := Outcome.bind_eq_ok_iff.1 h
  cases Outcome.pure_eq_ok_iff.1 h
  exact ⟨path, _, _, rfl⟩

theorem productEvolution_of_file {products : Place} {file : File}
    (h : Evolution.productFile dimension products = .ok file) :
    ProductEvolution dimension file := by
  obtain ⟨path, docs, docs', items⟩ := items_of_productFile h
  have different : s!"evolve_product{dimension}" ≠ s!"get_product{dimension}" :=
    numbered_ne (by decide) (by decide) dimension dimension
  obtain ⟨evolveOnly, getOnly⟩ := only_of_pair items rfl (definition?_evolve _ _ _ _ _)
    (definition?_await _ _ _ _ _)
    (withoutRawMark_numbered "evolve_product" (by decide) dimension)
    (withoutRawMark_numbered "get_product" (by decide) dimension) different
  refine ⟨_, _, evolveOnly, getOnly, evolvesProduct_evolve (definition?_evolve _ _ _ _ _),
    awaitsProduct_await (definition?_await _ _ _ _ _), ?_⟩
  intro Data world evolver value result evolves
  -- each evolver makes a future, which yields the result in its slot
  let future (i : Nat) : Value Data := (apply world (evolver i) [value i]).getD (.tuple [])
  have made (i : Nat) (positive : 1 ≤ i) (below : i ≤ dimension) :
      apply world (evolver i) [value i] = some (future i) ∧
        await world (future i) = some (result i) := by
    obtain ⟨made, madeIs, ready⟩ := Option.bind_eq_some_iff.1 (evolves i positive below)
    have futureIs : future i = made := by simp [future, madeIs]
    exact ⟨futureIs ▸ madeIs, futureIs ▸ ready⟩
  rw [call_evolve (fun i positive below => (made i positive below).1), Option.bind_some]
  exact call_get (fun i positive below => (made i positive below).2) _ _

/-! ## Sums -/

/-- The evolver of a case at work on what is in it. -/
def evolvedCase (dimension slot : Nat) : Node :=
  Sum.inCase (sumType dimension) slot (Evolution.evolved slot (.named "value"))

/-- What is in a case, once it is there. -/
def awaitedCase (dimension slot : Nat) : Node :=
  Sum.inCase (sumType dimension) slot (.await (.named "future"))

theorem evolvesSum_evolve {name : String} {definition : Definition}
    (defines : (Evolution.evolve name "sum" (sumType dimension) dimension
      (Sum.byCase "sum" (sumType dimension) dimension "value"
        (evolvedCase dimension))).definition? = some definition) :
    EvolvesSum dimension definition := by
  have takes := takes_evolve (withoutRawMark_sumType dimension) defines
  cases defines
  refine ⟨takes, chooses_byCase Node.reader_read? (Routine.collect_mk _ _ _ _ _)
    (fun slot => by simp) (fun slot => ?_) (fun slot => ?_)⟩
  · rw [evolvedCase, Node.collect_inCase Node.reader_arms?]
    simp [Evolution.evolved, Node.arms?, Node.named]
  · rw [evolvedCase, Node.collect_inCase Node.reader_read?]
    simp [Evolution.evolved, Node.read?, Node.named]

theorem awaitsSum_await {name : String} {definition : Definition}
    (defines : (Evolution.await name "sum" (sumType dimension) dimension
      [Sum.byCase "sum" (sumType dimension) dimension "future"
        (awaitedCase dimension)]).definition? = some definition) :
    AwaitsSum dimension definition := by
  have awaits := awaits_await (withoutRawMark_sumType dimension) defines
  cases defines
  refine ⟨awaits, chooses_byCase Node.reader_awaited? (Routine.collect_mk _ _ _ _ _)
    (fun slot => by simp) (fun slot => ?_) (fun slot => ?_)⟩
  · rw [awaitedCase, Node.collect_inCase Node.reader_arms?]
    simp [Node.arms?, Node.named]
  · rw [awaitedCase, Node.collect_inCase Node.reader_awaited?]
    simp [Node.named]

section Cases

variable {Data : Type} {world : World Data} {slot : Nat}

theorem call_evolveSum (positive : 1 ≤ slot) (below : slot ≤ dimension)
    (evolver : Nat → Value Data) (value : Value Data) (name : String) (evolvers whole : Node) :
    call world "" ⟨name, false, [.input "evolvers" evolvers, .input "sum" whole],
      [Sum.byCase "sum" (sumType dimension) dimension "value" (evolvedCase dimension)]⟩
        [productOf dimension evolver, caseOf dimension slot value] =
      (apply world (evolver slot) [value]).map (caseOf dimension slot) := by
  let scope : Variables Data :=
    [("evolvers", productOf dimension evolver), ("sum", caseOf dimension slot value)]
  have inputs : bindInputs "" [.input "evolvers" evolvers, .input "sum" whole]
      [productOf dimension evolver, caseOf dimension slot value] = some scope := by
    simp [scope]
  have subject : scope.lookup (withoutRawMark "sum") = some (caseOf dimension slot value) := by
    simp [scope, List.lookup_cons]
  have functionIs : eval world "" ((withoutRawMark "value", value) :: scope)
      (.paren (.member (.named "evolvers") (factor slot))) = some (evolver slot) := by
    rw [eval_paren]
    exact eval_factor (by simp [scope, List.lookup_cons]) positive below
  have valueIs : [Node.named "value"].mapM
      (eval world "" ((withoutRawMark "value", value) :: scope)) = some [value] := by simp
  rw [call_routine inputs]
  simp only [Bool.false_eq_true, if_false, run_singleton]
  rw [eval_byCase positive below subject, evolvedCase, eval_inCase, Evolution.evolved,
    eval_call_value rfl functionIs valueIs false]

theorem call_getSum (positive : 1 ≤ slot) (below : slot ≤ dimension) (future : Value Data)
    (name : String) (whole : Node) :
    (call world "" ⟨name, true, [.input "sum" whole],
      [Sum.byCase "sum" (sumType dimension) dimension "future" (awaitedCase dimension)]⟩
        [caseOf dimension slot future]).bind (await world) =
      (await world future).map (caseOf dimension slot) := by
  have inputs : bindInputs "" [.input "sum" whole] [caseOf dimension slot future] =
      some [("sum", caseOf dimension slot future)] := by simp
  have subject : List.lookup (withoutRawMark "sum") [("sum", caseOf dimension slot future)] =
      some (caseOf dimension slot future) := by simp
  rw [call_routine inputs, if_pos rfl, Option.bind_some, await_pending, run_singleton,
    eval_byCase positive below subject, awaitedCase, eval_inCase]
  simp

end Cases

/-- The file of the evolution of sums has one function that applies evolvers and one that awaits
futures. One after the other they put what the future that the evolver makes of the value in a case
yields in its place. -/
def SumEvolution (dimension : Nat) (file : File) : Prop :=
  ∃ evolve get, Only file.definitions s!"evolve_sum{dimension}" evolve ∧
    Only file.definitions s!"get_sum{dimension}" get ∧
    EvolvesSum dimension evolve ∧ AwaitsSum dimension get ∧
    ∀ {Data : Type} (world : World Data) (evolver : Nat → Value Data) (value : Value Data)
      (slot : Nat), 1 ≤ slot → slot ≤ dimension →
      ((call world "" evolve.routine [productOf dimension evolver,
        caseOf dimension slot value]).bind fun future =>
          (call world "" get.routine [future]).bind (await world)) =
        ((apply world (evolver slot) [value]).bind (await world)).map (caseOf dimension slot)

theorem items_of_sumFile {products sums : Place} {file : File}
    (h : Evolution.sumFile dimension products sums = .ok file) :
    ∃ productPath sumPath docs docs', file.items = [Node.importing ["std", "future", "Future"],
        Node.importing productPath, Node.importing sumPath] ++
      [Node.attributed docs (Evolution.evolve s!"evolve_sum{dimension}" "sum" (sumType dimension)
          dimension (Sum.byCase "sum" (sumType dimension) dimension "value"
            (evolvedCase dimension))),
        Node.attributed docs' (Evolution.await s!"get_sum{dimension}" "sum" (sumType dimension)
          dimension [Sum.byCase "sum" (sumType dimension) dimension "future"
            (awaitedCase dimension)])] := by
  obtain ⟨productPath, -, h⟩ := Outcome.bind_eq_ok_iff.1 h
  obtain ⟨sumPath, -, h⟩ := Outcome.bind_eq_ok_iff.1 h
  cases Outcome.pure_eq_ok_iff.1 h
  exact ⟨productPath, sumPath, _, _, rfl⟩

theorem sumEvolution_of_file {products sums : Place} {file : File}
    (h : Evolution.sumFile dimension products sums = .ok file) :
    SumEvolution dimension file := by
  obtain ⟨productPath, sumPath, docs, docs', items⟩ := items_of_sumFile h
  have different : s!"evolve_sum{dimension}" ≠ s!"get_sum{dimension}" :=
    numbered_ne (by decide) (by decide) dimension dimension
  obtain ⟨evolveOnly, getOnly⟩ := only_of_pair items rfl (definition?_evolve _ _ _ _ _)
    (definition?_await _ _ _ _ _)
    (withoutRawMark_numbered "evolve_sum" (by decide) dimension)
    (withoutRawMark_numbered "get_sum" (by decide) dimension) different
  refine ⟨_, _, evolveOnly, getOnly, evolvesSum_evolve (definition?_evolve _ _ _ _ _),
    awaitsSum_await (definition?_await _ _ _ _ _), ?_⟩
  intro Data world evolver value slot positive below
  rw [call_evolveSum positive below]
  cases apply world (evolver slot) [value] with
  | none => rfl
  | some future => exact call_getSum positive below future _ _

/-! ## Both -/

/-- The files of the evolution of products and of sums keep to the slots. -/
theorem evolution_of_files {products productsOfSum sums : Place} {productFile sumFile : File}
    (productsOk : Evolution.productFile dimension products = .ok productFile)
    (sumsOk : Evolution.sumFile dimension productsOfSum sums = .ok sumFile) :
    ProductEvolution dimension productFile ∧ SumEvolution dimension sumFile :=
  ⟨productEvolution_of_file productsOk, sumEvolution_of_file sumsOk⟩

/-- The evolution of products of three slots. -/
def threeFactorsEvolving : { file : File //
    Evolution.productFile 3 ⟨"src", "", "products"⟩ = .ok file } :=
  Outcome.value (by decide +kernel)

/-- The evolution of sums of three slots. -/
def threeSummandsEvolving : { file : File //
    Evolution.sumFile 3 ⟨"src", "", "products"⟩ ⟨"src", "", "sums"⟩ = .ok file } :=
  Outcome.value (by decide +kernel)

/-- The evolution of products and sums of three slots. -/
theorem evolution_three : ∃ productFile sumFile,
    Evolution.productFile 3 ⟨"src", "", "products"⟩ = .ok productFile ∧
      Evolution.sumFile 3 ⟨"src", "", "products"⟩ ⟨"src", "", "sums"⟩ = .ok sumFile ∧
      ProductEvolution 3 productFile ∧ SumEvolution 3 sumFile := by
  obtain ⟨productFile, productsOk⟩ := threeFactorsEvolving
  obtain ⟨sumFile, sumsOk⟩ := threeSummandsEvolving
  exact ⟨productFile, sumFile, productsOk, sumsOk, evolution_of_files productsOk sumsOk⟩

end Slotwise.Family
