import Slotwise.Proofs.Declared
import Slotwise.Proofs.Rendering
/-!
# Live variants

A live variant is a case with a value in each field. The pattern of its variant binds the value of
field `j` to the variable with number `j`, and the rebuilt case holds in field `j` what setter `j`
makes of that value (`eval_rebuilt`). The setters of a variant are a case of the sum, so the pattern
for the setters of one variant does not fit those of another (`matchPattern_inVariant`).
-/

namespace Slotwise.Code

open Naming

/-- A case whose fields have these values. -/
def Case.live {Data : Type} (type : String) (case : Case) (values : List (Value Data)) :
    Value Data :=
  .record [type, case.name] ((case.fields.map Prod.fst).zip values)

end Slotwise.Code

namespace Slotwise.Optics

open Code Naming

section Setting

variable {Data : Type} {world : World Data} {owner : String} {scope : Variables Data}

/-- The setters of one variant of a set, counted from 1. -/
def inSummand {Data : Type} (count index : Nat) (setters : Value Data) : Value Data :=
  .case [sumType count, summand index] [setters]

/-- A setter in a variable at work on a value. -/
theorem eval_applySetter (flavor : Flavor) {setter : String} {subject : Node}
    {edit value : Value Data} (setterIs : scope.lookup (withoutRawMark setter) = some edit)
    (valueIs : eval world owner scope subject = some value) :
    eval world owner scope (flavor.applySetter setter subject) =
      edited world flavor edit value := by
  have called : eval world owner scope (.call (.named setter) [subject] false) =
      apply world edit [value] := by
    rw [eval_call_variable (by simp [setterIs]), setterIs]
    simp [valueIs]
  cases flavor with
  | direct => exact called
  | asynchronous =>
    rw [Flavor.applySetter, eval_await, called]
    rfl

/-- Values with names are computed one by one. -/
theorem mapM_named {α β : Type} (names : List String) {xs : List α} (f : α → Option β)
    (length : xs.length = names.length) :
    ((names.zip xs).mapM fun (name, x) => (f x).map (name, ·)) = (xs.mapM f).map names.zip := by
  induction names generalizing xs with
  | nil =>
    cases List.length_eq_zero_iff.1 length
    rfl
  | cons name names ih =>
    match xs, length with
    | x :: rest, length =>
      have tail := ih (Nat.succ.inj length)
      simp only [List.zip_cons_cons, List.mapM_cons, tail]
      cases f x with
      | none => rfl
      | some y => cases rest.mapM f <;> rfl

end Setting

namespace Prism

section Live

variable {Data : Type} {world : World Data} {scope : Variables Data} {type : String}

/-- The case that a variant becomes. -/
def VariantCode.case (code : VariantCode) : Case :=
  ⟨withoutRawMark code.name, code.fields.map fun field => (withoutRawMark field.name, field.type)⟩

/-- The fields of a variant together with something for each, numbered from 1. -/
def VariantCode.rows {α : Type} (code : VariantCode) (xs : List α) :
    List ((FieldCode × α) × Nat) :=
  (code.fields.zip xs).zipIdx 1

theorem VariantCode.caseWith_eq {α : Type} (code : VariantCode) (content : Nat → Node)
    {xs : List α} (length : xs.length = code.width) :
    code.caseWith content =
      .fields code.path
        ((code.rows xs).map fun row => .fieldIs row.1.1.name (content row.2)) false := by
  have fields : code.fields.zipIdx 1 = (code.rows xs).map (Prod.map Prod.fst id) := by
    rw [VariantCode.rows, ← List.zipIdx_map, List.map_fst_zip length.ge]
  have numbered : code.caseWith content =
      .fields code.path ((code.fields.zipIdx (0 + 1)).map fun row =>
        .fieldIs row.1.name (content row.2)) false := by
    rw [List.zipIdx_succ, List.map_map]
    rfl
  rw [numbered, Nat.zero_add, fields, List.map_map]
  rfl

theorem VariantCode.named_rows {α : Type} (code : VariantCode) (xs : List α) :
    (code.rows xs).map (fun row => (withoutRawMark row.1.1.name, row.1.2)) =
      (code.case.fields.map Prod.fst).zip xs := by
  have split : (fun row : (FieldCode × α) × Nat => (withoutRawMark row.1.1.name, row.1.2)) =
      (fun row : FieldCode × α => (withoutRawMark row.1.name, row.2)) ∘ Prod.fst := rfl
  rw [split, ← List.map_map, VariantCode.rows, List.zipIdx_map_fst, VariantCode.case,
    List.map_map, List.zip_map_left]
  rfl

theorem VariantCode.live_eq (code : VariantCode) (values : List (Value Data)) :
    code.case.live type values =
      .record [type, withoutRawMark code.name]
        ((code.rows values).map fun row => (withoutRawMark row.1.1.name, row.1.2)) := by
  rw [code.named_rows]
  rfl

theorem VariantCode.length_fields (code : VariantCode) :
    (code.case.fields.map Prod.fst).length = code.width := by
  rw [List.length_map, VariantCode.case, List.length_map]
  rfl

theorem VariantCode.names_rows {α : Type} (code : VariantCode) {xs : List α}
    (length : xs.length = code.width) :
    ((code.rows xs).map fun row => withoutRawMark row.1.1.name) =
      code.case.fields.map Prod.fst := by
  have width : (code.case.fields.map Prod.fst).length ≤ xs.length := by
    rw [length, code.length_fields]
  have named := congrArg (List.map Prod.fst) (code.named_rows xs)
  rwa [List.map_map, List.map_fst_zip width] at named

theorem VariantCode.names?_path (code : VariantCode) :
    code.path.names? = some ["Self", withoutRawMark code.name] := by
  have plain : withoutRawMark "Self" = "Self" := by decide
  rw [VariantCode.path, Node.names?_namedAlong, List.map_cons, List.map_cons, plain]
  rfl

/-- The variables for the values of a live variant. -/
def VariantCode.bindings (code : VariantCode) (values : List (Value Data)) : Variables Data :=
  (code.rows values).map fun row => (VariantCode.valueVariable row.2, row.1.2)

@[simp] theorem VariantCode.withoutRawMark_valueVariable (index : Nat) :
    withoutRawMark (VariantCode.valueVariable index) = VariantCode.valueVariable index :=
  withoutRawMark_numbered "value" (by decide) index

/-- The pattern of a variant binds the values of its fields. -/
theorem matchPattern_pattern {code : VariantCode} (once : (code.case.fields.map Prod.fst).Nodup)
    {values : List (Value Data)} (length : values.length = code.width) :
    matchPattern type code.pattern (code.case.live type values) =
      some (some (code.bindings values)) := by
  have names : ((code.rows values).map fun row => withoutRawMark row.1.1.name).Nodup := by
    rwa [code.names_rows length]
  have fits := @matchPattern_bindings Data type _ (code.rows values) (fun row => row.1.1.name)
    (fun row => VariantCode.valueVariable row.2) (fun row => row.1.2) code.path false _
    code.names?_path names
  rw [VariantCode.pattern, code.caseWith_eq _ length, code.live_eq]
  simpa [VariantCode.bindings] using fits

/-- The pattern of a variant with two fields of one name makes no sense. -/
theorem matchPattern_pattern_stuck {code : VariantCode}
    (repeated : ¬ (code.case.fields.map Prod.fst).Nodup) {values : List (Value Data)}
    (length : values.length = code.width) :
    matchPattern type code.pattern (code.case.live type values) = none := by
  rw [VariantCode.pattern, code.caseWith_eq _ length, code.live_eq]
  refine matchPattern_repeated _ _ _ _ _ code.names?_path ?_ _
  rwa [code.names_rows length]

/-- The pattern of a variant does not fit another one. -/
theorem matchPattern_pattern_of_ne {code other : VariantCode}
    (different : withoutRawMark code.name ≠ withoutRawMark other.name)
    (values : List (Value Data)) :
    matchPattern type code.pattern (other.case.live type values) = some none := by
  rw [VariantCode.pattern, VariantCode.caseWith, Case.live]
  refine matchPattern_fields_of_ne _ _ _ code.names?_path ?_ _
  intro same
  exact different (List.cons.inj (List.cons.inj same).2).1

/-- The rebuilt case holds in each field what the field's setter makes of the old value. -/
theorem eval_rebuilt {code : VariantCode} (once : (code.case.fields.map Prod.fst).Nodup)
    (flavor : Flavor) {setters values : List (Value Data)} (width : setters.length = code.width)
    (length : values.length = code.width)
    (scopeIs : ∀ row ∈ (setters.zip values).zipIdx 1,
      scope.lookup (Shape.setterVariable row.2) = some row.1.1 ∧
      scope.lookup (VariantCode.valueVariable row.2) = some row.1.2) :
    eval world type scope (code.rebuilt flavor) =
      ((setters.zip values).mapM fun (setter, value) => edited world flavor setter value).map
        (code.case.live type) := by
  have pairs : (setters.zip values).length = code.width := by simp [width, length]
  have names : ((code.rows (setters.zip values)).map fun row =>
      withoutRawMark row.1.1.name).Nodup := by
    rwa [code.names_rows pairs]
  have content : ∀ row ∈ code.rows (setters.zip values),
      (eval world type scope (flavor.applySetter (Shape.setterVariable row.2)
        (.named (VariantCode.valueVariable row.2)))).map (withoutRawMark row.1.1.name, ·) =
      (edited world flavor row.1.2.1 row.1.2.2).map (withoutRawMark row.1.1.name, ·) := by
    intro row member
    have inside : (row.1.2, row.2) ∈ (setters.zip values).zipIdx 1 := by
      rw [VariantCode.rows, List.mem_zipIdx_iff_le_and_getElem?_sub] at member
      rw [List.mem_zipIdx_iff_le_and_getElem?_sub]
      exact ⟨member.1, (List.getElem?_zip_eq_some.1 member.2).2⟩
    obtain ⟨setterIs, valueIs⟩ := scopeIs _ inside
    rw [eval_applySetter flavor (by simpa using setterIs) (by simpa using valueIs)]
  have fields : (setters.zip values).length = (code.case.fields.map Prod.fst).length := by
    rw [pairs, code.length_fields]
  have edits := mapM_named (code.case.fields.map Prod.fst)
    (fun pair : Value Data × Value Data => edited world flavor pair.1 pair.2) fields
  rw [← code.named_rows, List.mapM_map] at edits
  rw [VariantCode.rebuilt, code.caseWith_eq _ pairs,
    eval_record _ _ _ _ _ code.names?_path names, Outcome.mapM_congr content]
  have step : ((code.rows (setters.zip values)).mapM fun row =>
      (edited world flavor row.1.2.1 row.1.2.2).map (withoutRawMark row.1.1.name, ·)) =
      ((setters.zip values).mapM fun pair => edited world flavor pair.1 pair.2).map
        (code.case.fields.map Prod.fst).zip := edits
  rw [step, Option.map_map]
  rfl

/-- The variables of a variant's setters and values together. -/
theorem lookup_variables {code : VariantCode} {setters values : List (Value Data)}
    (length : values.length = code.width)
    {row : (Value Data × Value Data) × Nat} (member : row ∈ (setters.zip values).zipIdx 1) :
    (Shape.bindings setters ++ code.bindings values ++ scope).lookup
        (Shape.setterVariable row.2) = some row.1.1 ∧
      (Shape.bindings setters ++ code.bindings values ++ scope).lookup
        (VariantCode.valueVariable row.2) = some row.1.2 := by
  rw [List.mem_zipIdx_iff_le_and_getElem?_sub] at member
  obtain ⟨positive, found⟩ := member
  obtain ⟨setterHere, valueHere⟩ := List.getElem?_zip_eq_some.1 found
  have setterIs : (Shape.bindings setters).lookup (Shape.setterVariable row.2) =
      some row.1.1 := by
    apply Shape.lookup_bindings
    rw [List.mem_zipIdx_iff_le_and_getElem?_sub]
    exact ⟨positive, setterHere⟩
  have apart : (Shape.bindings setters).lookup (VariantCode.valueVariable row.2) = none := by
    rw [List.lookup_eq_none_iff]
    intro entry inside
    obtain ⟨⟨setter, i⟩, -, rfl⟩ := List.mem_map.1 inside
    exact bne_iff_ne.2 (numbered_ne (by decide : "value".toList.head? ≠ "setter".toList.head?)
      (by decide) row.2 i)
  have valueIs : (code.bindings values).lookup (VariantCode.valueVariable row.2) =
      some row.1.2 := by
    have once : ((code.bindings values).map Prod.fst).Nodup := by
      rw [VariantCode.bindings, List.map_map]
      exact Shape.nodup_numbers (numbered_injective "value") _
    refine lookup_of_mem once (List.mem_map.2 ?_)
    have inside : row.2 - 1 < code.fields.length := by
      have bound := (List.getElem?_eq_some_iff.1 valueHere).1
      rwa [length] at bound
    refine ⟨((code.fields[row.2 - 1], row.1.2), row.2), ?_, rfl⟩
    rw [VariantCode.rows, List.mem_zipIdx_iff_le_and_getElem?_sub]
    exact ⟨positive, List.getElem?_zip_eq_some.2 ⟨List.getElem?_eq_getElem inside, valueHere⟩⟩
  simp [List.lookup_append, setterIs, apart, valueIs]

end Live

/-! ## The setters of one variant -/

section Summands

variable {Data : Type} {world : World Data} {owner : String} {scope : Variables Data}

theorem names?_summand (code : SetCode) (index : Nat) :
    (Node.namedAlong [code.sum, summand index]).names? =
      some [sumType code.count, summand index] := by
  rw [Node.names?_namedAlong]
  simp [SetCode.sum]

/-- The setters of one variant do not pass for those of another. -/
theorem matchPattern_inVariant (code : SetCode) (index other : Nat) (pattern : Node)
    (setters : Value Data) :
    matchPattern owner (code.inVariant index pattern) (inSummand code.count other setters) =
      if index = other then bothFit (matchPattern owner pattern setters) (some (some []))
      else some none := by
  rw [SetCode.inVariant, inSummand, matchPattern_call _ _ _ (names?_summand code index)]
  simp [summand_injective.eq_iff]

theorem eval_inVariant (code : SetCode) (index : Nat) (content : Node) :
    eval world owner scope (code.inVariant index content) =
      (eval world owner scope content).map (inSummand code.count index) := by
  have isCase : Node.isPointerMaker [withoutRawMark code.sum, withoutRawMark (summand index)] =
      false := by
    have other (name : String) (h : name.toList.head? ≠ some 'S') : sumType code.count ≠ name := by
      intro same
      rw [← same, sumType, String.toList_append] at h
      exact h rfl
    simp [Node.isPointerMaker, SetCode.sum, other "Box" (by decide), other "Rc" (by decide)]
  rw [SetCode.inVariant, eval_case _ _ isCase]
  simp only [SetCode.sum, withoutRawMark_sumType, withoutRawMark_summand, Node.resolve_sumType]
  rfl

end Summands

end Prism

end Slotwise.Optics
