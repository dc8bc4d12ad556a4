import Slotwise.Proofs.Subtrees
import Slotwise.Proofs.Variants
/-!
# Live records

A live record is a struct with a value in each field. Applying a transaction gives field `i` what
setter `i` of its shape makes of the old value (`run_setBody`), a single edit replaces one field
(`eval_selfUpdated`), and a transaction hands unchanging setters to its block
(`exists_transaction`). Setters that went through several edits do to each field what its own edits
do, one after the other (`exists_afterEdits`).
-/

namespace Slotwise.Code.Node

/-- What an expression waits for. -/
@[simp] def awaited? : Node → Option Node
  | await subject => some subject
  | _ => none

/-- What a piece of code waits for, in the order in which it is written. -/
abbrev awaits (node : Node) : List Node :=
  node.collect awaited?

end Slotwise.Code.Node

namespace Slotwise.Optics

open Code Naming

/-! ## Struct literals over fields -/

section Literals

variable {Data : Type} {world : World Data} {owner : String} {scope : Variables Data}

theorem names_zipIdx (fields : List FieldCode) :
    (fields.zipIdx.map fun row => withoutRawMark row.1.name) =
      fields.map fun field => withoutRawMark field.name := by
  have split : (fun row : FieldCode × Nat => withoutRawMark row.1.name) =
      (fun field : FieldCode => withoutRawMark field.name) ∘ Prod.fst := rfl
  rw [split, ← List.map_map, List.zipIdx_map_fst]

/-- A struct literal with content for every field by its number. -/
theorem eval_literal {fields : List FieldCode}
    (once : (fields.map fun field => withoutRawMark field.name).Nodup) {subject : Node}
    {names : List String} (spelled : subject.names? = some names)
    (content : Nat → FieldCode → Node) {α : Type} {xs : List α} (f : α → Option (Value Data))
    (length : xs.length = fields.length)
    (each : ∀ i field x, fields[i]? = some field → xs[i]? = some x →
      eval world owner scope (content (i + 1) field) = f x) (comma : Bool) :
    eval world owner scope
        (.fields subject
          (fields.zipIdx.map fun row => .fieldIs row.1.name (content (row.2 + 1) row.1)) comma) =
      (xs.mapM f).map fun values => .record (Node.resolve owner names)
        ((fields.map fun field => withoutRawMark field.name).zip values) := by
  let rows := (fields.zip xs).zipIdx
  have fieldsAre : fields.zipIdx = rows.map (Prod.map Prod.fst id) := by
    rw [← List.zipIdx_map, List.map_fst_zip length.ge]
  have entriesAre : (fields.map fun field => withoutRawMark field.name).zip xs =
      rows.map fun row => (withoutRawMark row.1.1.name, row.1.2) := by
    have split : (fun row : (FieldCode × α) × Nat => (withoutRawMark row.1.1.name, row.1.2)) =
        (fun row : FieldCode × α => (withoutRawMark row.1.name, row.2)) ∘ Prod.fst := rfl
    rw [split, ← List.map_map, List.zipIdx_map_fst, List.zip_map_left]
    rfl
  have contents : (rows.mapM fun row =>
        (eval world owner scope (content (row.2 + 1) row.1.1)).map
          (withoutRawMark row.1.1.name, ·)) =
      rows.mapM fun row => (f row.1.2).map (withoutRawMark row.1.1.name, ·) := by
    refine Outcome.mapM_congr fun row member => ?_
    obtain ⟨field, x⟩ := List.getElem?_zip_eq_some.1 (List.mk_mem_zipIdx_iff_getElem?.1 member)
    rw [each row.2 row.1.1 row.1.2 field x]
  have named := mapM_named (fields.map fun field => withoutRawMark field.name) f
    (by rw [length, List.length_map])
  rw [entriesAre, List.mapM_map] at named
  rw [eval_record fields.zipIdx (fun row => row.1.name) (fun row => content (row.2 + 1) row.1)
    subject comma spelled (by rwa [names_zipIdx]), fieldsAre, List.mapM_map]
  refine (congrArg (Option.map _) (contents.trans named)).trans ?_
  rw [Option.map_map]
  rfl

/-- A struct literal that gives two fields of one name. -/
theorem eval_literal_stuck {fields : List FieldCode}
    (repeated : ¬ (fields.map fun field => withoutRawMark field.name).Nodup) {subject : Node}
    {names : List String} (spelled : subject.names? = some names)
    (content : Nat → FieldCode → Node) (comma : Bool) :
    eval world owner scope
        (.fields subject
          (fields.zipIdx.map fun row => .fieldIs row.1.name (content (row.2 + 1) row.1)) comma) =
      none := by
  rw [eval_fields fields.zipIdx (fun row => row.1.name) (fun row => content (row.2 + 1) row.1)
    subject comma spelled, if_neg (by rwa [names_zipIdx])]

/-- One given field, and the others from a base. -/
theorem eval_updated {subject content base : Node} {names path : List String} {name : String}
    {value : Option (Value Data)} {fields : Variables Data} (spelled : subject.names? = some names)
    (contentIs : eval world owner scope content = value)
    (baseIs : eval world owner scope base = some (.record path fields)) (comma : Bool) :
    eval world owner scope
        (.fields subject [.fieldIs name content, .range none false (some base)] comma) =
      value.map fun value => .record path (overlay [(withoutRawMark name, value)] fields) := by
  have given : givenWith (eval world) owner scope
      [.fieldIs name content, .range none false (some base)] =
      (eval world owner scope content).map fun value => [(withoutRawMark name, value)] := by
    have one := @givenWith_fields Data world owner scope Unit [()] (fun _ => name) fun _ => content
    refine (Eq.trans rfl one).trans ?_
    cases eval world owner scope content <;> rfl
  have found : [Node.fieldIs name content, .range none false (some base)].findSome?
      Node.baseOfLiteral? = some base := rfl
  rw [eval_struct spelled, given, found, contentIs]
  cases value <;> simp [baseIs]

theorem overlay_single {names : List String} (once : names.Nodup) {values : List (Value Data)}
    {i : Nat} {name : String} (here : names[i]? = some name) (value : Value Data) :
    overlay [(name, value)] (names.zip values) = names.zip (values.set i value) := by
  apply List.ext_getElem
  · simp [overlay]
  · intro k inside _
    simp only [overlay, List.length_map, List.length_zip] at inside
    obtain ⟨bound, nameIs⟩ := List.getElem?_eq_some_iff.1 here
    have same : names[k] = name ↔ i = k := by
      rw [← nameIs, once.getElem_inj_iff]
      exact eq_comm
    simp only [overlay, List.getElem_map, List.getElem_zip, List.getElem_set, List.lookup_cons,
      List.lookup_nil]
    by_cases target : i = k
    · rw [if_pos target, beq_iff_eq.2 (same.2 target)]
      rfl
    · rw [if_neg target, beq_false_of_ne fun equal => target (same.1 equal)]
      rfl

end Literals

namespace Lens

/-! ## Records -/

/-- The name of the type of a record. -/
def RecordCode.typeName (code : RecordCode) : String :=
  withoutRawMark code.name

/-- The names of the fields. -/
def RecordCode.fieldNames (code : RecordCode) : List String :=
  code.fields.map fun field => withoutRawMark field.name

/-- The types of the fields. -/
def RecordCode.types (code : RecordCode) : List Node :=
  code.fields.map (·.type)

/-- A record with these values in its fields. -/
def RecordCode.live {Data : Type} (code : RecordCode) (values : List (Value Data)) : Value Data :=
  .record [code.typeName] (code.fieldNames.zip values)

section Live

variable {Data : Type} {world : World Data} {code : RecordCode} {scope : Variables Data}
  {values : List (Value Data)} {i : Nat} {field : FieldCode} {value : Value Data}

theorem names?_selfType : (Node.named "Self").names? = some ["Self"] := by
  rw [Node.names?_named]
  decide

theorem RecordCode.getElem?_fieldNames (fieldIs : code.fields[i]? = some field) :
    code.fieldNames[i]? = some (withoutRawMark field.name) := by
  rw [RecordCode.fieldNames, List.getElem?_map, fieldIs, Option.map_some]

/-- The value of a field. -/
theorem eval_field (once : code.fieldNames.Nodup)
    (selfIs : scope.lookup "self" = some (code.live values))
    (length : values.length = code.width) (fieldIs : code.fields[i]? = some field)
    (valueIs : values[i]? = some value) :
    eval world code.typeName scope (.member .self field.name) = some value := by
  have names : code.fieldNames.length = values.length :=
    (List.length_map _).trans length.symm
  have entries : ((code.fieldNames.zip values).map Prod.fst).Nodup := by
    rwa [List.map_fst_zip names.le]
  have member : (withoutRawMark field.name, value) ∈ code.fieldNames.zip values :=
    List.mem_of_getElem?
      (List.getElem?_zip_eq_some.2 ⟨code.getElem?_fieldNames fieldIs, valueIs⟩)
  have live : eval world code.typeName scope .self =
      some (.record [code.typeName] (code.fieldNames.zip values)) :=
    (eval_named "self").trans selfIs
  rw [eval_member live]
  exact lookup_of_mem entries member

/-- The record with one field given differs from the old one in that field only. -/
theorem eval_selfUpdated (once : code.fieldNames.Nodup)
    (selfIs : scope.lookup "self" = some (code.live values))
    (length : values.length = code.width) (fieldIs : code.fields[i]? = some field)
    {content : Node} {result : Option (Value Data)}
    (contentIs : eval world code.typeName scope content = result) :
    eval world code.typeName scope (selfUpdated code field content) =
      result.map fun value => code.live (values.set i value) := by
  have inside : i < code.width := (List.getElem?_eq_some_iff.1 fieldIs).1
  have live : eval world code.typeName scope .self =
      some (.record [code.typeName] (code.fieldNames.zip values)) :=
    (eval_named "self").trans selfIs
  unfold selfUpdated
  split
  · rw [eval_updated names?_selfType contentIs live]
    simp only [overlay_single once (code.getElem?_fieldNames fieldIs)]
    rfl
  · next narrow =>
    have single : code.width = 1 := by omega
    obtain ⟨only, fields⟩ := List.length_eq_one_iff.1 single
    obtain ⟨old, rfl⟩ := List.length_eq_one_iff.1 (length.trans single)
    have first : i = 0 := by omega
    subst first
    rw [fields, List.getElem?_cons_zero, Option.some.injEq] at fieldIs
    subst fieldIs
    have literal := @eval_fields Data world code.typeName scope Unit [()] (fun _ => only.name)
      (fun _ => content) (.named "Self") true _ names?_selfType
    rw [if_pos (by simp), List.mapM_cons, List.mapM_nil, contentIs] at literal
    refine literal.trans ?_
    cases result <;> simp [RecordCode.live, RecordCode.fieldNames, fields]

theorem setterVariable_ne_self (index : Nat) : Shape.setterVariable index ≠ "self" := by
  intro same
  have texts : ("setter" ++ toString index).toList = "self".toList := congrArg String.toList same
  rw [String.toList_append] at texts
  simp at texts

theorem lookup_self_bindings (setters : List (Value Data)) :
    (Shape.bindings setters ++ ("self", value) :: scope).lookup "self" = some value := by
  have absent : (Shape.bindings setters).lookup "self" = none := by
    rw [List.lookup_eq_none_iff]
    intro entry member
    obtain ⟨⟨setter, index⟩, -, rfl⟩ := List.mem_map.1 member
    exact bne_iff_ne.2 (setterVariable_ne_self index).symm
  rw [List.lookup_append, absent, Option.none_or, List.lookup_cons_self]

end Live

/-! ## Transactions -/

section Transactions

variable {Data : Type} {world : World Data} {code : RecordCode} {flavor : Flavor}
  {setters values : List (Value Data)} {transaction : Value Data}

theorem run_chosen (width : setters.length = code.width)
    (chosen : apply world transaction [code.live values] = some (Shape.value setters)) :
    run world code.typeName [("self", code.live values), ("transaction", transaction)]
        (setBody code flavor) =
      eval world code.typeName
        (Shape.bindings setters ++ [("self", code.live values), ("transaction", transaction)])
        (selfWith code fun i field =>
          flavor.applySetter (Shape.setterVariable i) (.member .self field.name)) := by
  have callable : (List.lookup (withoutRawMark "transaction")
      [("self", code.live values), ("transaction", transaction)]).isSome := rfl
  have called : eval world code.typeName
      [("self", code.live values), ("transaction", transaction)]
      (.call (.named "transaction") [.shared .self] false) = some (Shape.value setters) := by
    rw [eval_call_variable callable]
    simpa [List.lookup_cons] using chosen
  rw [setBody, run_let called (width ▸ Shape.matchPattern_pattern _ setters), run_singleton]

/-- A transaction gives each field what its setter makes of the old value. -/
theorem run_setBody (once : code.fieldNames.Nodup) (width : setters.length = code.width)
    (length : values.length = code.width)
    (chosen : apply world transaction [code.live values] = some (Shape.value setters)) :
    run world code.typeName [("self", code.live values), ("transaction", transaction)]
        (setBody code flavor) =
      ((setters.zip values).mapM fun (setter, value) => edited world flavor setter value).map
        code.live := by
  have pairs : (setters.zip values).length = code.fields.length := by
    rw [List.length_zip, width, length]
    exact Nat.min_self _
  rw [run_chosen width chosen]
  refine eval_literal once names?_selfType
    (fun i field => flavor.applySetter (Shape.setterVariable i) (.member .self field.name))
    (fun pair => edited world flavor pair.1 pair.2) pairs ?_ false
  rintro i field ⟨setter, value⟩ fieldIs pairIs
  obtain ⟨setterHere, valueHere⟩ := List.getElem?_zip_eq_some.1 pairIs
  have setterIs : (Shape.bindings setters ++ [("self", code.live values),
      ("transaction", transaction)]).lookup (withoutRawMark (Shape.setterVariable (i + 1))) =
      some setter := by
    have bound : (setter, i + 1) ∈ setters.zipIdx 1 := by
      rw [List.mem_zipIdx_iff_le_and_getElem?_sub]
      exact ⟨by omega, by simpa using setterHere⟩
    rw [Shape.withoutRawMark_setterVariable, List.lookup_append, Shape.lookup_bindings bound,
      Option.some_or]
  exact eval_applySetter flavor setterIs
    (eval_field once (lookup_self_bindings setters) length fieldIs valueHere)

/-- Where two fields bear one name, a transaction gets nowhere. -/
theorem run_setBody_stuck (repeated : ¬ code.fieldNames.Nodup)
    (width : setters.length = code.width)
    (chosen : apply world transaction [code.live values] = some (Shape.value setters)) :
    run world code.typeName [("self", code.live values), ("transaction", transaction)]
        (setBody code flavor) = none := by
  rw [run_chosen width chosen]
  exact eval_literal_stuck repeated names?_selfType
    (fun i field => flavor.applySetter (Shape.setterVariable i) (.member .self field.name)) false

/-- A transaction hands unchanging setters to its block. -/
theorem exists_transaction {widths : List Nat} (supports : Supports world widths) :
    ∃ same, Unchanging world flavor same ∧
      ∀ block, ∃ transaction,
        eval world code.typeName [("block", block)] (transactionBody code flavor) =
          some transaction ∧
        ∀ live, apply world transaction [live] =
          apply world block [Shape.value (List.replicate code.width same)] := by
  obtain ⟨same, unchanging, called⟩ := exists_unchanging supports flavor
  refine ⟨same, unchanging, fun block => ⟨_, eval_closure _ _ _ _ _ _, fun live => ?_⟩⟩
  have inputs : bindInputs code.typeName [.typed .wild (.shared (.named "Self"))] [live] =
      some [] := rfl
  have callable : (List.lookup (withoutRawMark "block") [("block", block)]).isSome := rfl
  have free : List.lookup flavor.identity [("block", block)] = none := by
    cases flavor <;> rfl
  have identity : eval world code.typeName [("block", block)] (Shape.identity flavor code.width) =
      some (Shape.value (List.replicate code.width same)) :=
    Shape.eval_identity (called _ _ free) code.width
  rw [apply_closure inputs, List.nil_append, eval_call_variable callable]
  simp [identity]

end Transactions

/-! ## Awaits -/

section Awaits

variable {code : RecordCode}

theorem awaits_pattern (width : Nat) : (Shape.pattern width).awaits = [] := by
  rcases Nat.lt_or_ge width 2 with small | two_le
  · match width, small with
    | 0, _ => simp [Shape.pattern]
    | 1, _ => simp [Shape.pattern, Node.binding]
  · rw [Shape.pattern_of_two_le two_le]
    simp [Node.named, Node.fieldIs, Node.binding, List.flatMap_map]

theorem awaits_chosen (width : Nat) :
    (Node.letStatement (Shape.pattern width)
      (some (.call (.named "transaction") [.shared .self] false)) none).awaits = [] := by
  simp [awaits_pattern, Node.named, Node.shared, Node.self]

theorem awaits_applied (setter : String) (field : FieldCode) :
    (Node.call (.named setter) [.member .self field.name] false).awaits = [] := by
  simp [Node.named, Node.self]

/-- A transaction awaits the new value of each field, one after the other. -/
theorem awaits_setBody (code : RecordCode) (flavor : Flavor) :
    (setBody code flavor).flatMap Node.awaits =
      match flavor with
      | .direct => []
      | .asynchronous => code.fields.zipIdx.map fun row =>
        .call (.named (Shape.setterVariable (row.2 + 1))) [.member .self row.1.name] false := by
  have literal : (setBody code flavor).flatMap Node.awaits =
      code.fields.zipIdx.flatMap fun row =>
        (flavor.applySetter (Shape.setterVariable (row.2 + 1))
          (.member .self row.1.name)).awaits := by
    rw [setBody, List.flatMap_cons, awaits_chosen, List.nil_append, List.flatMap_singleton]
    simp [selfWith, Node.named, Node.fieldIs, List.flatMap_map]
  rw [literal]
  cases flavor with
  | direct =>
    rw [List.flatMap_eq_nil_iff]
    exact fun row _ => awaits_applied _ row.1
  | asynchronous =>
    rw [List.map_eq_flatMap]
    refine congrArg (List.flatMap · _) (funext fun row => ?_)
    refine (Node.collect_await _ _).trans ?_
    rw [List.flatMap_singleton]
    exact congrArg (_ :: ·) (awaits_applied _ row.1)

end Awaits

/-! ## Several edits -/

section Edits

variable {Data : Type} (world : World Data) (flavor : Flavor)

/-- What becomes of a value under several edits, one after the other. -/
noncomputable def through (edits : List (Value Data)) (value : Value Data) :
    Option (Value Data) :=
  edits.foldlM (fun value edit => edited world flavor edit value) value

/-- The edits of a field among edits of numbered fields. -/
def editsOf (steps : List (Nat × Value Data)) (i : Nat) : List (Value Data) :=
  (steps.filter (·.1 == i)).map Prod.snd

variable {world flavor}

theorem editsOf_cons (step : Nat × Value Data) (steps : List (Nat × Value Data)) (i : Nat) :
    editsOf (step :: steps) i = if step.1 = i then step.2 :: editsOf steps i
      else editsOf steps i := by
  by_cases same : step.1 = i <;> simp [editsOf, same]

/-- Setters that went through edits, each of which changes the setter of one field only, do to each
field what it did before and then what the edits of the field do. -/
theorem exists_afterEdits {width : Nat} {perform : Nat × Value Data → Value Data → Option (Value Data)}
    {steps : List (Nat × Value Data)}
    (each : ∀ step ∈ steps, ∀ (setters : List (Value Data)) setter, setters.length = width →
      setters[step.1]? = some setter → ∃ after, Follows world flavor setter step.2 after ∧
        perform step (Shape.value setters) = some (Shape.value (setters.set step.1 after)))
    (inside : ∀ step ∈ steps, step.1 < width) {setters : List (Value Data)}
    (length : setters.length = width) :
    ∃ after : List (Value Data), after.length = width ∧
      steps.foldlM (fun shape step => perform step shape) (Shape.value setters) =
        some (Shape.value after) ∧
      ∀ (i : Nat) (old new value : Value Data), setters[i]? = some old → after[i]? = some new →
        edited world flavor new value =
          (edited world flavor old value).bind (through world flavor (editsOf steps i)) := by
  induction steps generalizing setters with
  | nil =>
    refine ⟨setters, length, rfl, fun i old new value oldIs newIs => ?_⟩
    rw [oldIs, Option.some.injEq] at newIs
    subst newIs
    cases edited world flavor old value <;> rfl
  | cons step steps ih =>
    have bound : step.1 < setters.length := length ▸ inside step List.mem_cons_self
    obtain ⟨composed, follows, performed⟩ := each step List.mem_cons_self setters _ length
      (List.getElem?_eq_getElem bound)
    have lengthSet : (setters.set step.1 composed).length = width := by
      rw [List.length_set, length]
    obtain ⟨after, lengthAfter, run, effect⟩ :=
      ih (fun other member => each other (List.mem_cons_of_mem _ member))
        (fun other member => inside other (List.mem_cons_of_mem _ member)) lengthSet
    refine ⟨after, lengthAfter, ?_, fun i old new value oldIs newIs => ?_⟩
    · rw [List.foldlM_cons, performed]
      exact run
    · rw [editsOf_cons]
      by_cases target : step.1 = i
      · -- the edit comes between what the setter did before and the later edits
        subst target
        have composedIs : (setters.set step.1 composed)[step.1]? = some composed := by
          rw [List.getElem?_set_self bound]
        rw [List.getElem?_eq_getElem bound, Option.some.injEq] at oldIs
        rw [effect _ composed new value composedIs newIs, follows, oldIs, if_pos rfl,
          Option.bind_assoc]
        rfl
      · have kept : (setters.set step.1 composed)[i]? = some old := by
          rw [List.getElem?_set_ne target, oldIs]
        rw [effect i old new value kept newIs, if_neg target]

end Edits

end Lens

end Slotwise.Optics
