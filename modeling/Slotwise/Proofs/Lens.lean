import Slotwise.Proofs.LensItems
import Slotwise.Proofs.Prism
/-!
# The laws of lenses

A lens addresses the fields of a record through slots: slot `i` of a setter shape belongs to field
`i`. The laws say that a transaction gives each field what the setter in its slot makes of the old
value, that an edit of a field changes its slot only, and that edits of one field follow each other
(`Lawful`).

Generated code finds fields and methods by name, so the laws hold exactly when the names tell apart
what they name, as they stand in the code (`lens_lawful_iff_namesApart`). The checks on records
compare the names as they are written, where two texts of one name pass (`not_lens_lawful_blank`).
-/

namespace Slotwise.Optics.Lens

open Code Naming
open Prism (performed emitted? emitted?_of_identifier mapM_unchanging handBack apply_handBack always
  apply_always)

/-! ## Laws -/

section Laws

variable {Data : Type} (world : World Data) (record : Record) (code : RecordCode) (file : File)
  (flavor : Flavor)

/-- The name that the setter of field `i` has in the code. -/
def setterName? (i : Nat) : Option String :=
  (record.fields[i]?).bind fun field => emitted? (setter field.name record.settersSuffix)

/-- The method of the setters that composes an edit of field `i`. -/
def composing? (i : Nat) : Option Routine :=
  (setterName? record i).bind (only? (file.traitMethodsOn (settersName code.typeName flavor)))

/-- The method of the record that edits field `i`. -/
def editing? (i : Nat) : Option Routine :=
  (setterName? record i).bind fun name =>
    only? (file.methodsOn code.typeName) (name ++ flavor.editSuffix)

/-- Setters after an edit of a numbered field. -/
noncomputable def edit (step : Nat × Value Data) (shape : Value Data) : Option (Value Data) :=
  (composing? record code file flavor step.1).bind fun routine =>
    call world (settersName code.typeName flavor) routine [shape, step.2]

/-- The lens of a record is lawful in its file. -/
structure Lawful : Prop where
  /-- The struct has the fields in order. -/
  declares : file.struct? =
    some ⟨code.typeName, code.fields.map fun field => (withoutRawMark field.name, field.type)⟩
  /-- Slot `i` of the setters carries a setter for the type of field `i`. -/
  shapes : ∃ target, file.alias? (settersName code.typeName flavor) = some target ∧
    Shape.Spells world flavor code.types target
  /-- A transaction gives field `i` what setter `i` makes of its old value. -/
  applies : ∃ routine, only? (file.methodsOn code.typeName) flavor.setName = some routine ∧
    ∀ setters values transaction, setters.length = code.width → values.length = code.width →
      apply world transaction [code.live values] = some (Shape.value setters) →
      performed world flavor code.typeName routine [code.live values, transaction] =
        ((setters.zip values).mapM fun (setter, value) => edited world flavor setter value).map
          code.live
  /-- A transaction awaits the new value of each field once, in the order of declaration; a direct
  one awaits nothing. -/
  awaits : ∃ routine, only? (file.methodsOn code.typeName) flavor.setName = some routine ∧
    routine.body.flatMap Node.awaits =
      match flavor with
      | .direct => []
      | .asynchronous => code.fields.zipIdx.map fun row =>
        .call (.named (Shape.setterVariable (row.2 + 1))) [.member .self row.1.name] false
  /-- The transaction of a block runs it on unchanging setters, one for each field. -/
  transacts : ∃ routine same,
    only? (file.methodsOn code.typeName) flavor.transactionName = some routine ∧
    Unchanging world flavor same ∧
    ∀ block, ∃ transaction, call world code.typeName routine [block] = some transaction ∧
      ∀ values, values.length = code.width →
        apply world transaction [code.live values] =
          apply world block [Shape.value (List.replicate code.width same)]
  /-- The transaction of a block that changes nothing changes nothing. -/
  unchanged : ∃ setRoutine routine,
    only? (file.methodsOn code.typeName) flavor.setName = some setRoutine ∧
    only? (file.methodsOn code.typeName) flavor.transactionName = some routine ∧
    ∀ block, (∀ setters, apply world block [setters] = some setters) →
      ∃ transaction, call world code.typeName routine [block] = some transaction ∧
        ∀ values, values.length = code.width →
          performed world flavor code.typeName setRoutine [code.live values, transaction] =
            some (code.live values)
  /-- An edit of field `i` comes behind the setter in slot `i` and leaves the others alone. -/
  composes : ∀ i < code.width, ∃ routine, composing? record code file flavor i = some routine ∧
    ∀ setters setter edit, setters.length = code.width → setters[i]? = some setter →
      ∃ after, Follows world flavor setter edit after ∧
        call world (settersName code.typeName flavor) routine [Shape.value setters, edit] =
          some (Shape.value (setters.set i after))
  /-- A transaction whose block makes several edits does to each field what the edits of that field
  do, one after the other. -/
  edits : ∃ setRoutine routine,
    only? (file.methodsOn code.typeName) flavor.setName = some setRoutine ∧
    only? (file.methodsOn code.typeName) flavor.transactionName = some routine ∧
    ∀ steps block, (∀ step ∈ steps, step.1 < code.width) →
      (∀ setters, setters.length = code.width → apply world block [Shape.value setters] =
        steps.foldlM (fun shape step => edit world record code file flavor step shape)
          (Shape.value setters)) →
      ∃ transaction, call world code.typeName routine [block] = some transaction ∧
        ∀ values, values.length = code.width →
          performed world flavor code.typeName setRoutine [code.live values, transaction] =
            (values.zipIdx.mapM fun (value, i) =>
              through world flavor (editsOf steps i) value).map code.live
  /-- The method that edits field `i` replaces that field only. -/
  replaces : ∀ i < code.width, ∃ routine, editing? record code file flavor i = some routine ∧
    ∀ values value edit, values.length = code.width → values[i]? = some value →
      performed world flavor code.typeName routine [code.live values, edit] =
        (edited world flavor edit value).map fun value => code.live (values.set i value)

end Laws

/-- The names of a record tell apart what they name, as they stand in the code. -/
structure NamesApart (code : RecordCode) : Prop where
  /-- No two fields bear one name. -/
  fields : code.fieldNames.Nodup
  /-- No two methods bear one name. -/
  methods : code.methodNames.Nodup

instance (code : RecordCode) : Decidable (NamesApart code) :=
  decidable_of_iff (code.fieldNames.Nodup ∧ code.methodNames.Nodup)
    ⟨fun ⟨fields, methods⟩ => ⟨fields, methods⟩, fun ⟨fields, methods⟩ => ⟨fields, methods⟩⟩

/-! ## Methods by their names -/

section Methods

variable {record : Record} {code : RecordCode} {file : File} {flavor : Flavor}

theorem Reads.setterNames_length (reads : Reads record code) :
    code.setterNames.length = code.fields.length := by
  rw [Outcome.length_of_mapM reads.setterNames]
  exact reads.width.symm

/-- A field has a name for its setter. -/
theorem Reads.exists_row (reads : Reads record code) {i : Nat} (inside : i < code.width) :
    ∃ field name, code.rows[i]? = some (field, name) ∧ code.fields[i]? = some field ∧
      setterName? record i = some (withoutRawMark name) := by
  have bound : i < record.fields.length := by
    rwa [← reads.width]
  have nameBound : i < code.setterNames.length := by
    rwa [reads.setterNames_length]
  obtain ⟨length, each⟩ := List.forall₂_iff_get.1 (Outcome.mapM_eq_ok_iff.1 reads.setterNames)
  refine ⟨code.fields[i], code.setterNames[i], ?_, List.getElem?_eq_getElem inside, ?_⟩
  · exact List.getElem?_zip_eq_some.2
      ⟨List.getElem?_eq_getElem inside, List.getElem?_eq_getElem nameBound⟩
  · rw [setterName?, List.getElem?_eq_getElem bound, Option.bind_some]
    exact emitted?_of_identifier (each i bound nameBound)

theorem routine_mem (code : RecordCode) (flavor : Flavor) :
    code.setRoutine flavor ∈ code.routines ∧ code.transactionRoutine flavor ∈ code.routines := by
  cases flavor <;> simp [RecordCode.routines, RecordCode.transactionRoutines]

theorem editRoutine_mem {row : FieldCode × String} (member : row ∈ code.rows) (flavor : Flavor) :
    code.editRoutine flavor row ∈ code.routines := by
  have inside : code.editRoutine flavor row ∈ code.editRoutines := by
    refine List.mem_flatMap.2 ⟨row, member, ?_⟩
    cases flavor <;> simp
  rw [RecordCode.routines, List.mem_cons, List.mem_append]
  exact .inr (.inl inside)

theorem only?_of_namesApart (reads : Reads record code) (emits : Emits code file)
    (methods : code.methodNames.Nodup) {routine : Routine} (member : routine ∈ code.routines) :
    only? (file.methodsOn code.typeName) routine.name = some routine := by
  rw [emits.methods]
  refine only?_of_nodup ?_ member
  exact (code.perm_methodNames reads.setterNames_length).nodup_iff.2 methods

/-- The method of the setters that stands in row `i`. -/
theorem mem_setterMethods {i : Nat} {field : FieldCode} {name : String}
    (rowIs : code.rows[i]? = some (field, name)) :
    ∃ method ∈ code.setterMethods flavor, method.name = name ∧
      method.body = Shape.composeSlot flavor code.width (i + 1) field.type "self" :=
  ⟨_, List.mem_map.2 ⟨((field, name), i), List.mk_mem_zipIdx_iff_getElem?.2 rowIs, rfl⟩, rfl, rfl⟩

theorem names_setterMethods (reads : Reads record code) :
    ((code.setterMethods flavor).map SetterMethod.routine).map (·.name) =
      code.setterNames.map withoutRawMark := by
  have split : (fun row : (FieldCode × String) × Nat => withoutRawMark row.1.2) =
      withoutRawMark ∘ Prod.snd ∘ Prod.fst := rfl
  have names : code.rows.zipIdx.map (fun row => withoutRawMark row.1.2) =
      code.setterNames.map withoutRawMark := by
    rw [split, ← List.map_map, ← List.map_map, List.zipIdx_map_fst, RecordCode.rows,
      List.map_snd_zip reads.setterNames_length.le]
  rw [List.map_map, RecordCode.setterMethods, List.map_map]
  exact names

end Methods

/-! ## Names that are apart make lawful lenses -/

section Sufficiency

variable {Data : Type} {world : World Data} {record : Record} {code : RecordCode} {file : File}
  {flavor : Flavor}

theorem performed_setRoutine (live transaction : Value Data) :
    performed world flavor code.typeName (code.setRoutine flavor) [live, transaction] =
      run world code.typeName [("self", live), ("transaction", transaction)]
        (setBody code flavor) := by
  have inputs : bindInputs code.typeName (code.setRoutine flavor).inputs [live, transaction] =
      some [("self", live), ("transaction", transaction)] := by
    simp [RecordCode.setRoutine]
  cases flavor with
  | direct =>
    rw [performed, call_routine inputs]
    rfl
  | asynchronous =>
    rw [performed, call_routine inputs]
    exact await_pending _

theorem call_transactionRoutine (block : Value Data) :
    call world code.typeName (code.transactionRoutine flavor) [block] =
      eval world code.typeName [("block", block)] (transactionBody code flavor) := by
  have inputs : bindInputs code.typeName (code.transactionRoutine flavor).inputs [block] =
      some [("block", block)] := by
    simp [RecordCode.transactionRoutine]
  rw [call_routine inputs]
  exact run_singleton _

/-- The method that edits one field replaces it. -/
theorem performed_editRoutine (once : code.fieldNames.Nodup) {i : Nat} {row : FieldCode × String}
    (fieldIs : code.fields[i]? = some row.1) {values : List (Value Data)} {value : Value Data}
    (length : values.length = code.width) (valueIs : values[i]? = some value)
    (edit : Value Data) :
    performed world flavor code.typeName (code.editRoutine flavor row)
        [code.live values, edit] =
      (edited world flavor edit value).map fun value => code.live (values.set i value) := by
  have inputs : bindInputs code.typeName (code.editRoutine flavor row).inputs
      [code.live values, edit] = some [("self", code.live values), ("f", edit)] := by
    simp [RecordCode.editRoutine]
  have content : eval world code.typeName [("self", code.live values), ("f", edit)]
      (flavor.applySetter "f" (.member .self row.1.name)) = edited world flavor edit value :=
    eval_applySetter flavor rfl (eval_field once rfl length fieldIs valueIs)
  have updated := @eval_selfUpdated Data world code [("self", code.live values), ("f", edit)]
    values i row.1 once rfl length fieldIs _ _ content
  cases flavor with
  | direct =>
    rw [performed, call_routine inputs]
    exact (run_singleton _).trans updated
  | asynchronous =>
    rw [performed, call_routine inputs]
    exact ((await_pending _).trans (run_singleton _)).trans updated

/-- The method of the setters for a field composes an edit into the slot of the field. -/
theorem call_composing (supports : Supports world [code.width]) {method : SetterMethod} {i : Nat}
    {type : Node} (body : method.body = Shape.composeSlot flavor code.width (i + 1) type "self")
    {setters : List (Value Data)} {setter : Value Data} (edit : Value Data)
    (width : setters.length = code.width) (here : setters[i]? = some setter) :
    ∃ after, Follows world flavor setter edit after ∧
      call world (settersName code.typeName flavor) method.routine [Shape.value setters, edit] =
        some (Shape.value (setters.set i after)) := by
  have inputs : bindInputs (settersName code.typeName flavor) method.routine.inputs
      [Shape.value setters, edit] = some [("self", Shape.value setters), ("f", edit)] := by
    simp [SetterMethod.routine]
  have shapeIs : List.lookup (withoutRawMark "self")
      [("self", Shape.value setters), ("f", edit)] = some (Shape.value setters) := rfl
  have editIs : List.lookup "f" [("self", Shape.value setters), ("f", edit)] = some edit := rfl
  have free : List.lookup flavor.compose [("self", Shape.value setters), ("f", edit)] = none := by
    cases flavor <;> rfl
  obtain ⟨after, follows, composed⟩ := @Shape.exists_composeSlot Data world _
    (settersName code.typeName flavor) _ supports flavor setters (by simp [width]) i setter edit
    here "self" shapeIs editIs free type
  refine ⟨after, follows, ?_⟩
  rw [call_routine inputs]
  refine (run_singleton _).trans ?_
  rw [body, ← width]
  exact composed

/-- Setters that do to each field what its edits do. -/
theorem mapM_through {setters values : List (Value Data)} {edits : Nat → List (Value Data)}
    (width : setters.length = values.length)
    (each : ∀ (i : Nat) setter value, setters[i]? = some setter → values[i]? = some value →
      edited world flavor setter value = through world flavor (edits i) value) :
    ((setters.zip values).mapM fun (setter, value) => edited world flavor setter value) =
      values.zipIdx.mapM fun (value, i) => through world flavor (edits i) value := by
  have valuesAre : values.zipIdx = (setters.zip values).zipIdx.map (Prod.map Prod.snd id) := by
    rw [← List.zipIdx_map, List.map_snd_zip width.ge]
  have pairsAre : setters.zip values = (setters.zip values).zipIdx.map Prod.fst :=
    (List.zipIdx_map_fst _ _).symm
  rw [valuesAre, List.mapM_map]
  conv_lhs => rw [pairsAre]
  rw [List.mapM_map]
  refine Outcome.mapM_congr fun row member => ?_
  obtain ⟨setterIs, valueIs⟩ :=
    List.getElem?_zip_eq_some.1 (List.mk_mem_zipIdx_iff_getElem?.1 member)
  exact each row.2 row.1.1 row.1.2 setterIs valueIs

/-- A lens whose names are apart is lawful. -/
theorem lawful_of_namesApart (reads : Reads record code) (emits : Emits code file)
    {files : List File} (filesAre : world.files = Support.file :: files)
    (family : FamilyFiles [record.fields.length] files) (names : NamesApart code) :
    Lawful world record code file flavor := by
  rw [← reads.width] at family
  have supports : Supports world [code.width] := supports_of_files filesAre family
  have setIs : only? (file.methodsOn code.typeName) flavor.setName = some (code.setRoutine flavor) :=
    only?_of_namesApart reads emits names.methods (routine_mem code flavor).1
  have transactionIs : only? (file.methodsOn code.typeName) flavor.transactionName =
      some (code.transactionRoutine flavor) :=
    only?_of_namesApart reads emits names.methods (routine_mem code flavor).2
  have setterNames : (code.setterNames.map withoutRawMark).Nodup :=
    (List.nodup_append.1 (List.nodup_append.1 (List.nodup_append.1 names.methods).1).1).2.1
  have composing : ∀ i < code.width, ∃ routine,
      composing? record code file flavor i = some routine ∧
      ∀ (setters : List (Value Data)) setter edit, setters.length = code.width →
        setters[i]? = some setter → ∃ after, Follows world flavor setter edit after ∧
          call world (settersName code.typeName flavor) routine [Shape.value setters, edit] =
            some (Shape.value (setters.set i after)) := by
    intro i inside
    obtain ⟨field, name, rowIs, -, nameIs⟩ := reads.exists_row inside
    obtain ⟨method, member, rfl, body⟩ := mem_setterMethods rowIs
    refine ⟨method.routine, ?_, fun setters setter edit width here =>
      call_composing supports body edit width here⟩
    rw [composing?, nameIs, Option.bind_some, emits.setters flavor]
    refine only?_of_nodup ?_ (List.mem_map.2 ⟨method, member, rfl⟩)
    rwa [names_setterMethods reads]
  obtain ⟨same, unchanging, made⟩ :=
    @exists_transaction Data world code flavor _ supports
  refine ⟨emits.struct, ⟨_, emits.settersAlias flavor, ?_⟩, ⟨_, setIs, ?_⟩,
    ⟨_, setIs, awaits_setBody code flavor⟩, ⟨_, same, transactionIs, unchanging, ?_⟩,
    ⟨_, _, setIs, transactionIs, ?_⟩, composing, ⟨_, _, setIs, transactionIs, ?_⟩, ?_⟩
  case refine_1 =>
    refine spells_type filesAre family flavor ?_
    rw [RecordCode.types, List.length_map]
    exact List.mem_singleton.2 rfl
  case refine_2 =>
    intro setters values transaction width length chosen
    rw [performed_setRoutine]
    exact run_setBody names.fields width length chosen
  case refine_3 =>
    intro block
    obtain ⟨transaction, transactionMade, answers⟩ := made block
    exact ⟨transaction, call_transactionRoutine block ▸ transactionMade,
      fun values _ => answers _⟩
  case refine_4 =>
    intro block blockIs
    obtain ⟨transaction, transactionMade, answers⟩ := made block
    refine ⟨transaction, call_transactionRoutine block ▸ transactionMade, fun values length => ?_⟩
    have chosen : apply world transaction [code.live values] =
        some (Shape.value (List.replicate values.length same)) := by
      rw [answers, blockIs, length]
    rw [performed_setRoutine,
      run_setBody names.fields (List.length_replicate.trans length) length chosen,
      mapM_unchanging unchanging, Option.map_some]
  case refine_5 =>
    intro steps block inside blockIs
    obtain ⟨transaction, transactionMade, answers⟩ := made block
    refine ⟨transaction, call_transactionRoutine block ▸ transactionMade, fun values length => ?_⟩
    have each : ∀ step ∈ steps, ∀ (setters : List (Value Data)) setter,
        setters.length = code.width → setters[step.1]? = some setter →
        ∃ after, Follows world flavor setter step.2 after ∧
          edit world record code file flavor step (Shape.value setters) =
            some (Shape.value (setters.set step.1 after)) := by
      intro step member setters setter width here
      obtain ⟨routine, routineIs, law⟩ := composing step.1 (inside step member)
      rw [edit, routineIs, Option.bind_some]
      exact law setters setter step.2 width here
    have replicated : (List.replicate code.width same).length = code.width :=
      List.length_replicate
    obtain ⟨after, width, ran, effect⟩ := exists_afterEdits each inside replicated
    have chosen : apply world transaction [code.live values] = some (Shape.value after) := by
      rw [answers, blockIs _ replicated]
      exact ran
    rw [performed_setRoutine, run_setBody names.fields width length chosen]
    refine congrArg _ (mapM_through (width.trans length.symm) ?_)
    intro i setter value setterIs valueIs
    have bound : i < code.width := width ▸ (List.getElem?_eq_some_iff.1 setterIs).1
    have sameIs : (List.replicate code.width same)[i]? = some same := by
      rw [List.getElem?_replicate, if_pos bound]
    rw [effect i same setter value sameIs setterIs, unchanging value, Option.bind_some]
  case refine_6 =>
    intro i inside
    obtain ⟨field, name, rowIs, fieldIs, nameIs⟩ := reads.exists_row inside
    refine ⟨code.editRoutine flavor (field, name), ?_, fun values value edit length valueIs =>
      performed_editRoutine names.fields fieldIs length valueIs edit⟩
    rw [editing?, nameIs, Option.bind_some]
    exact only?_of_namesApart reads emits names.methods
      (editRoutine_mem (List.mem_of_getElem? rowIs) flavor)

end Sufficiency

/-! ## Edits of one field -/

section OneField

variable {Data : Type} {world : World Data} {record : Record} {code : RecordCode} {file : File}
  {flavor : Flavor}

theorem editsOf_map (i k : Nat) (edits : List (Value Data)) :
    editsOf (edits.map (i, ·)) k = if k = i then edits else [] := by
  by_cases same : k = i
  · have all : (edits.map (i, ·)).filter (·.1 == k) = edits.map (i, ·) := by
      rw [List.filter_eq_self, List.forall_mem_map]
      exact fun _ _ => beq_iff_eq.2 same.symm
    rw [editsOf, all, if_pos same, List.map_map]
    exact List.map_id edits
  · have none : (edits.map (i, ·)).filter (·.1 == k) = [] := by
      rw [List.filter_eq_nil_iff, List.forall_mem_map]
      exact fun _ _ equal => same (beq_iff_eq.1 equal).symm
    rw [editsOf, none, if_neg same, List.map_nil]

theorem mapM_through_field {values : List (Value Data)} {i : Nat} {value : Value Data}
    (valueIs : values[i]? = some value) (edits : List (Value Data)) (start : Nat) :
    ((values.zipIdx start).mapM fun row =>
        through world flavor (if row.2 = start + i then edits else []) row.1) =
      (through world flavor edits value).map fun value => values.set i value := by
  induction values generalizing i start with
  | nil => cases valueIs
  | cons first rest ih =>
    cases i with
    | zero =>
      obtain rfl := Option.some.inj valueIs
      have others : ((rest.zipIdx (start + 1)).mapM fun row =>
          through world flavor (if row.2 = start then edits else []) row.1) = some rest := by
        have each : ∀ row ∈ rest.zipIdx (start + 1),
            through world flavor (if row.2 = start then edits else []) row.1 = some row.1 := by
          intro row member
          have above := List.le_snd_of_mem_zipIdx member
          rw [if_neg (by omega)]
          rfl
        rw [Outcome.mapM_eq_some_map each, List.zipIdx_map_fst]
      simp only [Nat.add_zero, List.zipIdx_cons, List.mapM_cons, others, if_true]
      cases through world flavor edits first <;> rfl
    | succ j =>
      have later := ih (i := j) (by simpa using valueIs) (start + 1)
      have number : start + 1 + j = start + (j + 1) := by omega
      have other : ¬ start = start + (j + 1) := by omega
      rw [number] at later
      simp only [List.zipIdx_cons, List.mapM_cons, if_neg other, later]
      cases through world flavor edits value <;> rfl

/-- A transaction whose block makes several edits of one field replaces that field by what the edits
make of it one after the other, and keeps all others. -/
theorem Lawful.edits_field (lawful : Lawful world record code file flavor) :
    ∃ setRoutine routine,
      only? (file.methodsOn code.typeName) flavor.setName = some setRoutine ∧
      only? (file.methodsOn code.typeName) flavor.transactionName = some routine ∧
      ∀ i < code.width, ∀ edits block,
        (∀ setters, setters.length = code.width → apply world block [Shape.value setters] =
          edits.foldlM (fun shape f => edit world record code file flavor (i, f) shape)
            (Shape.value setters)) →
        ∃ transaction, call world code.typeName routine [block] = some transaction ∧
          ∀ values value, values.length = code.width → values[i]? = some value →
            performed world flavor code.typeName setRoutine [code.live values, transaction] =
              (through world flavor edits value).map fun value =>
                code.live (values.set i value) := by
  obtain ⟨setRoutine, routine, setIs, transactionIs, law⟩ := lawful.edits
  refine ⟨setRoutine, routine, setIs, transactionIs, fun i inside edits block blockIs => ?_⟩
  obtain ⟨transaction, made, result⟩ := law (edits.map (i, ·)) block
    (by simp [inside]) fun setters width => by rw [blockIs setters width, List.foldlM_map]
  refine ⟨transaction, made, fun values value length valueIs => ?_⟩
  have field := @mapM_through_field Data world flavor values i value valueIs edits 0
  simp only [Nat.zero_add, ← editsOf_map] at field
  rw [result values length]
  refine (congrArg (Option.map code.live) field).trans ?_
  rw [Option.map_map]
  rfl

end OneField

/-! ## Lawful lenses have names that are apart -/

section Necessity

variable {Data : Type} {world : World Data} {record : Record} {code : RecordCode} {file : File}

theorem setRoutine_eq_of_only? (emits : Emits code file) {flavor : Flavor} {routine : Routine}
    (only : only? (file.methodsOn code.typeName) flavor.setName = some routine) :
    routine = code.setRoutine flavor := by
  rw [emits.methods] at only
  exact (eq_of_only? only (routine_mem code flavor).1 rfl).symm

theorem fieldNames_nodup_of_lawful (emits : Emits code file)
    (lawful : Lawful world record code file .direct) : code.fieldNames.Nodup := by
  by_contra repeated
  obtain ⟨routine, only, law⟩ := lawful.applies
  obtain rfl := setRoutine_eq_of_only? emits only
  let values : List (Value Data) := List.replicate code.width (.tuple [])
  have length : values.length = code.width := List.length_replicate
  have unchanging : Unchanging world .direct (handBack : Value Data) := apply_handBack
  let setters := List.replicate values.length (handBack : Value Data)
  have width : setters.length = code.width := List.length_replicate.trans length
  have chosen : apply world (always (Shape.value setters)) [code.live values] =
      some (Shape.value setters) := apply_always _ _
  have result := law setters values _ width length chosen
  rw [performed_setRoutine, run_setBody_stuck repeated width chosen,
    mapM_unchanging unchanging] at result
  cases result

/-- If each routine behind the first is the only one of its name, names occur once. -/
theorem nodup_cons_of_only? {first : Routine} {rest : List Routine}
    (only : ∀ routine ∈ rest, (only? (first :: rest) routine.name).isSome) :
    ((first :: rest).map (·.name)).Nodup := by
  refine nodup_of_only? fun routine member => ?_
  by_cases shared : ∃ other ∈ rest, other.name = routine.name
  · obtain ⟨other, inside, same⟩ := shared
    exact same ▸ only other inside
  · have alone : routine = first := by
      obtain same | inside := List.mem_cons.1 member
      · exact same
      · exact absurd ⟨routine, inside, rfl⟩ shared
    subst alone
    have filtered : (routine :: rest).filter (·.name == routine.name) = [routine] := by
      rw [List.filter_cons, if_pos (beq_self_eq_true _), List.filter_eq_nil_iff.2]
      intro other inside same
      exact shared ⟨other, inside, beq_iff_eq.1 same⟩
    rw [only?_eq_some_iff.2 filtered]
    rfl

theorem methodNames_nodup_of_lawful (reads : Reads record code) (emits : Emits code file)
    (lawful : ∀ flavor, Lawful world record code file flavor) : code.methodNames.Nodup := by
  rw [← (code.perm_methodNames reads.setterNames_length).nodup_iff, RecordCode.routines]
  refine nodup_cons_of_only? fun routine member => ?_
  rw [← RecordCode.routines, ← emits.methods]
  obtain inside | inside := List.mem_append.1 member
  · obtain ⟨row, rowMember, inRow⟩ := List.mem_flatMap.1 inside
    obtain ⟨i, rowIs⟩ := List.mem_iff_getElem?.1 rowMember
    obtain ⟨flavor, rfl⟩ : ∃ flavor, routine = code.editRoutine flavor row := by
      obtain rfl | rfl := List.mem_pair.1 inRow
      · exact ⟨.direct, rfl⟩
      · exact ⟨.asynchronous, rfl⟩
    have bound : i < code.width :=
      (List.getElem?_eq_some_iff.1 (List.getElem?_zip_eq_some.1 rowIs).1).1
    obtain ⟨field, name, sameRow, -, nameIs⟩ := reads.exists_row bound
    rw [rowIs, Option.some.injEq] at sameRow
    subst sameRow
    obtain ⟨found, only, -⟩ := (lawful flavor).replaces i bound
    rw [editing?, nameIs, Option.bind_some] at only
    exact Option.isSome_iff_exists.2 ⟨found, only⟩
  · obtain ⟨flavor, -, ofFlavor⟩ := List.mem_flatMap.1 inside
    obtain rfl | rfl := List.mem_pair.1 ofFlavor
    · obtain ⟨found, only, -⟩ := (lawful flavor).applies
      exact Option.isSome_iff_exists.2 ⟨found, only⟩
    · obtain ⟨found, _, only, -⟩ := (lawful flavor).transacts
      exact Option.isSome_iff_exists.2 ⟨found, only⟩

end Necessity

/-- A generated lens is lawful, in both flavours, if and only if its names are apart. -/
theorem lens_lawful_iff_namesApart {record : Record} {around : Surroundings} {file : File}
    (generated : Lens.file record around = .ok file) {Data : Type} {world : World Data}
    {files : List File} (filesAre : world.files = Support.file :: files)
    (family : FamilyFiles [record.fields.length] files) :
    ∃ code, RecordCode.ofRecord record = .ok code ∧
      ((∀ flavor, Lawful world record code file flavor) ↔ NamesApart code) := by
  obtain ⟨code, codeOk, emits⟩ := emits_of_file generated
  have reads := reads_of_ofRecord codeOk
  refine ⟨code, codeOk, fun lawful => ?_, fun names flavor => ?_⟩
  · exact ⟨fieldNames_nodup_of_lawful emits (lawful .direct),
      methodNames_nodup_of_lawful reads emits lawful⟩
  · exact lawful_of_namesApart reads emits filesAre family names

/-! ## Two records -/

/-- A record with two fields of one type. -/
def point : Record :=
  ((Record.new "Point").withField (.new "x" (.named "f64"))).withField (.new "y" (.named "f64"))

/-- A record that gives two fields the same name, once with a blank behind it. -/
def blank : Record :=
  ((Record.new "Point").withField (.new "x" (.named "f64"))).withField (.new "x " (.named "f64"))

theorem exists_code_of_decide {record : Record} {apart : Bool}
    (h : (match RecordCode.ofRecord record with
      | .ok code => decide (NamesApart code) == apart
      | .error _ => false) = true) {code : RecordCode}
    (codeOk : RecordCode.ofRecord record = .ok code) : decide (NamesApart code) = apart := by
  rw [codeOk] at h
  exact beq_iff_eq.1 h

theorem familyFiles_product {width : Nat} {place : Place} {product : File}
    (multiplied : Family.Product.file width place = .ok product) :
    FamilyFiles [width] [product] := by
  constructor
  · intro other member
    rw [List.mem_singleton.1 member]
    exact .inl ⟨width, place, multiplied⟩
  · intro other member _
    rw [List.mem_singleton.1 member]
    exact ⟨place, product, List.mem_singleton.2 rfl, multiplied⟩

/-- The file of the first record. -/
def pointLens : { file : File // Lens.file point Prism.besideEachOther = .ok file } :=
  Outcome.value <| by
    simp only [Lens.file, productImports, typeImports, Ordered.sortedTexts,
      Ordered.sortedSet_eq_foldr]
    decide +kernel

/-- The file of the second record. -/
def blankLens : { file : File // Lens.file blank Prism.besideEachOther = .ok file } :=
  Outcome.value <| by
    simp only [Lens.file, productImports, typeImports, Ordered.sortedTexts,
      Ordered.sortedSet_eq_foldr]
    decide +kernel

theorem lens_lawful_point :
    ∃ file product code, Lens.file point Prism.besideEachOther = .ok file ∧
      Family.Product.file 2 Prism.besideEachOther.products = .ok product ∧
      RecordCode.ofRecord point = .ok code ∧
      ∀ flavor, Lawful (⟨[Support.file, product], fun _ _ => none, fun _ => none⟩ : World Unit)
        point code file flavor := by
  obtain ⟨file, generated⟩ := pointLens
  obtain ⟨product, multiplied⟩ := Prism.pairs
  let world : World Unit := ⟨[Support.file, product], fun _ _ => none, fun _ => none⟩
  have filesAre : world.files = Support.file :: [product] := rfl
  obtain ⟨code, codeOk, lawful⟩ :=
    lens_lawful_iff_namesApart generated filesAre (familyFiles_product multiplied)
  have apart : decide (NamesApart code) = true :=
    exists_code_of_decide (by decide +kernel) codeOk
  exact ⟨file, product, code, generated, multiplied, codeOk, lawful.2 (of_decide_eq_true apart)⟩

/-- A record that passes all checks and is generated, and whose lens is not lawful. -/
theorem not_lens_lawful_blank :
    Check.record blank = .ok () ∧
      ∃ file product code, Lens.file blank Prism.besideEachOther = .ok file ∧
        Family.Product.file 2 Prism.besideEachOther.products = .ok product ∧
        RecordCode.ofRecord blank = .ok code ∧
        ¬ ∀ flavor, Lawful
          (⟨[Support.file, product], fun _ _ => none, fun _ => none⟩ : World Unit) blank code file
          flavor := by
  obtain ⟨_, accepted⟩ := Outcome.exists_of_isOk
    (show (Check.record blank).isOk = true by decide +kernel)
  obtain ⟨file, generated⟩ := blankLens
  obtain ⟨product, multiplied⟩ := Prism.pairs
  obtain ⟨code, codeOk, emits⟩ := emits_of_file generated
  refine ⟨accepted, file, product, code, generated, multiplied, codeOk, fun lawful => ?_⟩
  have repeated : decide (NamesApart code) = false :=
    exists_code_of_decide (by decide +kernel) codeOk
  refine of_decide_eq_false repeated ⟨fieldNames_nodup_of_lawful emits (lawful .direct), ?_⟩
  exact methodNames_nodup_of_lawful (reads_of_ofRecord codeOk) emits lawful

end Slotwise.Optics.Lens
