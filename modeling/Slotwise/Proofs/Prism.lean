import Slotwise.Check.Declaration
import Slotwise.Proofs.PrismItems
import Slotwise.Proofs.Shared
/-!
# The laws of prisms

A prism addresses the fields of a variant set through slots: the setters of the set are the sum of
the variants' setters, and summand `i` of it holds the setters of variant `i` by number. The laws say
that a transaction edits the live variant field by field when it targets it and leaves every other
variant alone, and that each setter changes the slots of its field only (`Lawful`).

Generated code finds variants, fields and methods by name, so the laws hold exactly when the names
tell apart what they name, as they stand in the code (`lawful_iff_namesApart`). The checks on
variant sets compare the names as they are written, where two texts of one name pass
(`not_lawful_twice`).
-/

namespace Slotwise.Optics.Prism

open Code Naming

/-! ## Laws -/

section Laws

variable {Data : Type} (world : World Data)

/-- What a method makes of some values, once a future that it gives was awaited. -/
noncomputable def performed (flavor : Flavor) (owner : String) (routine : Routine)
    (values : List (Value Data)) : Option (Value Data) :=
  match flavor with
  | .direct => call world owner routine values
  | .asynchronous => (call world owner routine values).bind (await world)

/-- The name that a text becomes in the code. -/
def emitted? (text : String) : Option String :=
  (Node.identifier? text).map withoutRawMark

/-- The method of setters with the name that a text becomes. -/
def settersMethod? (file : File) (code : SetCode) (flavor : Flavor) (text : String) :
    Option Routine :=
  (emitted? text).bind (only? (file.traitMethodsOn (settersName code.typeName flavor)))

/-- A method composes an edit into the setters at these places, each the number of a variant and of
a field in it, and does nothing else. -/
structure EditsOnly (code : SetCode) (flavor : Flavor) (routine : Routine)
    (places : List (Nat × Nat)) : Prop where
  /-- The setter at a place gets the edit behind it; the other setters of the variant stay. -/
  edits : ∀ i j target, (i + 1, j + 1) ∈ places → code.variants[i]? = some target →
    ∀ setters setter edit, setters.length = target.width → setters[j]? = some setter →
      ∃ after, Follows world flavor setter edit after ∧
        call world (settersName code.typeName flavor) routine
            [inSummand code.count (i + 1) (Shape.value setters), edit] =
          some (inSummand code.count (i + 1) (Shape.value (setters.set j after)))
  /-- Setters of a variant without a place pass through. -/
  passes : ∀ k, k < code.count → (∀ place ∈ places, place.1 ≠ k + 1) → ∀ setters edit,
    call world (settersName code.typeName flavor) routine
        [inSummand code.count (k + 1) setters, edit] =
      some (inSummand code.count (k + 1) setters)

/-- A live variant of a set with these values in its fields. -/
abbrev SetCode.live (code : SetCode) (variant : VariantCode) (values : List (Value Data)) :
    Value Data :=
  variant.case.live code.typeName values

/-- The prism of a variant set is lawful in its file. -/
structure Lawful (set : VariantSet) (code : SetCode) (file : File) (flavor : Flavor) : Prop where
  /-- The enumeration has the variants as its cases. -/
  declares : file.enumeration? = some ⟨code.typeName, code.variants.map VariantCode.case⟩
  /-- Summand `i` of the setters carries the setter shape of variant `i`. -/
  shapes : ∃ target, file.alias? (settersName code.typeName flavor) = some target ∧
    ∀ i variant, code.variants[i]? = some variant → ∃ shape,
      world.partType? target (summand (i + 1)) = some shape ∧
        Shape.Spells world flavor variant.types shape
  /-- A transaction with setters for variant `i` edits a live variant `i` field by field, and leaves
  any other live variant as it is. -/
  applies : ∃ routine, only? (file.methodsOn code.typeName) flavor.setName = some routine ∧
    ∀ i k target subject, code.variants[i]? = some target → code.variants[k]? = some subject →
    ∀ setters values transaction, setters.length = target.width → values.length = subject.width →
      apply world transaction [code.live subject values] =
        some (inSummand code.count (i + 1) (Shape.value setters)) →
      performed world flavor code.typeName routine [code.live subject values, transaction] =
        if i = k then
          ((setters.zip values).mapM fun (setter, value) => edited world flavor setter value).map
            (code.live subject)
        else some (code.live subject values)
  /-- The transaction of a block runs it on unchanging setters for the live variant. -/
  transacts : ∃ routine same,
    only? (file.methodsOn code.typeName) flavor.transactionName = some routine ∧
    Unchanging world flavor same ∧
    ∀ block, ∃ transaction, call world code.typeName routine [block] = some transaction ∧
      ∀ k subject values, code.variants[k]? = some subject → values.length = subject.width →
        apply world transaction [code.live subject values] =
          apply world block [inSummand code.count (k + 1)
            (Shape.value (List.replicate subject.width same))]
  /-- The transaction of a block that changes nothing changes nothing. -/
  unchanged : ∃ setRoutine routine,
    only? (file.methodsOn code.typeName) flavor.setName = some setRoutine ∧
    only? (file.methodsOn code.typeName) flavor.transactionName = some routine ∧
    ∀ block, (∀ setters, apply world block [setters] = some setters) →
      ∃ transaction, call world code.typeName routine [block] = some transaction ∧
        ∀ subject ∈ code.variants, ∀ values, values.length = subject.width →
          performed world flavor code.typeName setRoutine
            [code.live subject values, transaction] = some (code.live subject values)
  /-- The setter of field `j` of variant `i` edits that place only. -/
  variantSetters : ∀ i j variant field, code.variants[i]? = some variant →
    variant.fields[j]? = some field →
    ∃ routine, settersMethod? file code flavor
        (variantSetter field.name variant.written set.settersSuffix) = some routine ∧
      EditsOnly world code flavor routine [(i + 1, j + 1)]
  /-- The setter of a shared field edits its places only, and these are all fields of the name. -/
  sharedSetters : ∀ shared ∈ code.shared,
    (∃ routine, settersMethod? file code flavor (setter shared.name set.settersSuffix) =
      some routine ∧ EditsOnly world code flavor routine shared.occurrences) ∧
    ∀ i j, (i + 1, j + 1) ∈ shared.occurrences ↔
      ∃ variant field, set.variants[i]? = some variant ∧ variant.fields[j]? = some field ∧
        field.name = shared.name

end Laws

/-- The texts that the names of the setters are made of. -/
def SetCode.setterTexts (code : SetCode) (set : VariantSet) : List String :=
  code.shared.map (fun field => setter field.name set.settersSuffix) ++
    code.variants.flatMap fun variant => variant.fields.map fun field =>
      variantSetter field.name variant.written set.settersSuffix

/-- The names of a variant set tell apart what they name, as they stand in the code. -/
structure NamesApart (set : VariantSet) (code : SetCode) : Prop where
  /-- No two variants bear one name. -/
  cases : code.casesApart
  /-- No two fields of a variant bear one name. -/
  fields : ∀ variant ∈ code.variants, variant.fieldsApart
  /-- No base field and no constructor bears the name of a method around transactions. -/
  methods : ∀ name ∈ Check.transactionMethods,
    name ∉ code.base.map (fun field => withoutRawMark field.name) ++
      code.variants.map fun variant => withoutRawMark variant.constructor
  /-- No two setters bear one name. -/
  setters : ((code.setterTexts set).map emitted?).Nodup

instance (set : VariantSet) (code : SetCode) : Decidable (NamesApart set code) :=
  decidable_of_iff
    ((code.variants.map fun variant => withoutRawMark variant.name).Nodup ∧
      (∀ variant ∈ code.variants, (variant.case.fields.map Prod.fst).Nodup) ∧
      (∀ name ∈ Check.transactionMethods,
        name ∉ code.base.map (fun field => withoutRawMark field.name) ++
          code.variants.map fun variant => withoutRawMark variant.constructor) ∧
      ((code.setterTexts set).map emitted?).Nodup)
    ⟨fun ⟨cases, fields, methods, setters⟩ => ⟨cases, fields, methods, setters⟩,
      fun ⟨cases, fields, methods, setters⟩ => ⟨cases, fields, methods, setters⟩⟩

/-! ## Methods by their names -/

section Methods

variable {set : VariantSet} {code : SetCode} {file : File} (emits : Emits set code file)

include emits

theorem only?_transactionRoutine
    (apart : ∀ name ∈ Check.transactionMethods,
      name ∉ code.base.map (fun field => withoutRawMark field.name) ++
        code.variants.map fun variant => withoutRawMark variant.constructor)
    {routine : Routine} (member : routine ∈ code.transactionRoutines) :
    only? (file.methodsOn code.typeName) routine.name = some routine := by
  obtain ⟨others, methods, names⟩ := emits.methods
  have ownNames : code.transactionRoutines.map (·.name) = Check.transactionMethods := rfl
  have known : routine.name ∈ Check.transactionMethods := by
    rw [← ownNames]
    exact List.mem_map.2 ⟨routine, member, rfl⟩
  have absent : routine.name ∉ others.map (·.name) := by
    rw [names]
    exact apart _ known
  rw [methods, only?_append_of_notMem absent]
  refine only?_of_nodup ?_ member
  rw [ownNames]
  decide

theorem mem_methodsOn {routine : Routine} (member : routine ∈ code.transactionRoutines) :
    routine ∈ file.methodsOn code.typeName := by
  obtain ⟨others, methods, -⟩ := emits.methods
  rw [methods]
  exact List.mem_append_right _ member

theorem notMem_of_only? {name : String} (known : name ∈ Check.transactionMethods)
    {routine : Routine} (only : only? (file.methodsOn code.typeName) name = some routine) :
    name ∉ code.base.map (fun field => withoutRawMark field.name) ++
      code.variants.map fun variant => withoutRawMark variant.constructor := by
  obtain ⟨others, methods, names⟩ := emits.methods
  rw [← names]
  intro inside
  obtain ⟨other, otherMember, otherName⟩ := List.mem_map.1 inside
  have ownNames : code.transactionRoutines.map (·.name) = Check.transactionMethods := rfl
  rw [← ownNames] at known
  obtain ⟨own, ownMember, ownName⟩ := List.mem_map.1 known
  have filtered := only?_eq_some_iff.1 only
  have count : 2 ≤ ((others ++ code.transactionRoutines).filter (·.name == name)).length := by
    rw [List.filter_append, List.length_append]
    have first : 0 < (others.filter (·.name == name)).length :=
      List.length_pos_of_mem (List.mem_filter.2 ⟨otherMember, beq_iff_eq.2 otherName⟩)
    have second : 0 < (code.transactionRoutines.filter (·.name == name)).length :=
      List.length_pos_of_mem (List.mem_filter.2 ⟨ownMember, beq_iff_eq.2 ownName⟩)
    omega
  rw [← methods, filtered] at count
  simp at count

end Methods

section Setters

variable {set : VariantSet} {code : SetCode} {flavor : Flavor}

theorem emitted?_of_identifier {owner expected text name : String}
    (h : ModelText.identifier owner expected text = .ok name) :
    emitted? text = some (withoutRawMark name) := by
  unfold ModelText.identifier ModelText.orInvalid at h
  split at h
  · cases h
  · split at h
    · next read =>
      cases h
      rw [emitted?, read, Option.map_some]
    · cases h

theorem sharedMethod_eq_ok {field : SharedField} {method : SetterMethod}
    (h : sharedMethod set code flavor field = .ok method) :
    emitted? (setter field.name set.settersSuffix) = some (withoutRawMark method.name) ∧
      ∃ type, method.body = composing code flavor type field.occurrences
        (if field.covers code.count then [] else [otherArm]) := by
  obtain ⟨name, nameOk, h⟩ := Outcome.bind_eq_ok_iff.1 h
  obtain ⟨type, -, h⟩ := Outcome.bind_eq_ok_iff.1 h
  cases Outcome.pure_eq_ok_iff.1 h
  exact ⟨emitted?_of_identifier nameOk, type, rfl⟩

theorem variantMethod_eq_ok {variant : VariantCode} {v f : Nat} {field : FieldCode}
    {method : SetterMethod} (h : variantMethod set code flavor variant v field f = .ok method) :
    emitted? (variantSetter field.name variant.written set.settersSuffix) =
        some (withoutRawMark method.name) ∧
      ∃ type, method.body = composing code flavor type [(v, f)] [otherArm] := by
  obtain ⟨name, nameOk, h⟩ := Outcome.bind_eq_ok_iff.1 h
  cases Outcome.pure_eq_ok_iff.1 h
  exact ⟨emitted?_of_identifier nameOk, field.type, rfl⟩

theorem map_zipIdx_fst {α β : Type} (f : α → β) (xs : List α) :
    (xs.zipIdx.map fun row => f row.1) = xs.map f := by
  have split : (fun row : α × Nat => f row.1) = f ∘ Prod.fst := rfl
  rw [split, ← List.map_map, List.zipIdx_map_fst]

/-- The names of the methods of setters are what their texts become. -/
theorem ReadsMethods.names {shared : List SetterMethod} {variants : List (List SetterMethod)}
    (reads : ReadsMethods set code flavor shared variants) :
    (code.setterTexts set).map emitted? =
      ((shared ++ variants.flatten).map SetterMethod.routine).map fun routine =>
        some routine.name := by
  have sharedNames := Outcome.map_eq_of_mapM
    (fun field method ok => (sharedMethod_eq_ok ok).1) reads.shared
  have variantNames : (code.variants.zipIdx.map fun row => row.1.fields.map fun field =>
      emitted? (variantSetter field.name row.1.written set.settersSuffix)) =
      variants.map fun methods => methods.map fun method =>
        some (withoutRawMark method.name) := by
    refine Outcome.map_eq_of_mapM ?_ reads.variants
    rintro ⟨variant, v⟩ methods fieldsOk
    rw [← map_zipIdx_fst]
    exact Outcome.map_eq_of_mapM (fun _ _ ok => (variantMethod_eq_ok ok).1) fieldsOk
  rw [map_zipIdx_fst fun variant : VariantCode => variant.fields.map fun field =>
    emitted? (variantSetter field.name variant.written set.settersSuffix)] at variantNames
  rw [SetCode.setterTexts, List.map_append, List.map_map, List.map_flatMap, List.flatMap_def]
  simp only [List.map_map, Function.comp_def] at variantNames ⊢
  rw [sharedNames, variantNames, List.map_append, List.map_flatten]
  rfl

end Setters

/-! ## Names that are apart make lawful prisms -/

section Routines

variable {Data : Type} {world : World Data} {set : VariantSet} {code : SetCode} {flavor : Flavor}

theorem performed_setRoutine (live transaction : Value Data) :
    performed world flavor code.typeName (code.setRoutine flavor) [live, transaction] =
      eval world code.typeName [("self", live), ("transaction", transaction)]
        (setBody code flavor) := by
  have inputs : bindInputs code.typeName (code.setRoutine flavor).inputs [live, transaction] =
      some [("self", live), ("transaction", transaction)] := by
    simp [SetCode.setRoutine]
  cases flavor with
  | direct =>
    rw [performed, call_routine inputs]
    exact run_singleton _
  | asynchronous =>
    rw [performed, call_routine inputs]
    exact (await_pending _).trans (run_singleton _)

theorem call_transactionRoutine (block : Value Data) :
    call world code.typeName (code.transactionRoutine flavor) [block] =
      eval world code.typeName [("block", block)] (transactionBody code flavor) := by
  have inputs : bindInputs code.typeName (code.transactionRoutine flavor).inputs [block] =
      some [("block", block)] := by
    simp [SetCode.transactionRoutine]
  rw [call_routine inputs]
  exact run_singleton _

theorem setRoutine_mem (code : SetCode) (flavor : Flavor) :
    code.setRoutine flavor ∈ code.transactionRoutines := by
  cases flavor <;> simp [SetCode.transactionRoutines]

theorem transactionRoutine_mem (code : SetCode) (flavor : Flavor) :
    code.transactionRoutine flavor ∈ code.transactionRoutines := by
  cases flavor <;> simp [SetCode.transactionRoutines]

/-- A method that composes edits of places edits these places only. -/
theorem editsOnly_composing (supports : Supports world (code.variants.map VariantCode.width))
    {method : SetterMethod} {type : Node} {places : List (Nat × Nat)} {rest : List Node}
    (body : method.body = composing code flavor type places rest)
    (once : ∀ i j, (i + 1, j + 1) ∈ places → ∀ other ∈ places, other.1 = i + 1 →
      other = (i + 1, j + 1))
    (others : ∀ k < code.count, (∀ place ∈ places, place.1 ≠ k + 1) → rest = [otherArm]) :
    EditsOnly world code flavor method.routine places := by
  have called (setters edit : Value Data) :
      call world (settersName code.typeName flavor) method.routine [setters, edit] =
        eval world (settersName code.typeName flavor) [("self", setters), ("f", edit)]
          (composing code flavor type places rest) := by
    have inputs : bindInputs (settersName code.typeName flavor) method.routine.inputs
        [setters, edit] = some [("self", setters), ("f", edit)] := by
      simp [SetterMethod.routine]
    rw [call_routine inputs, ← body]
    exact run_singleton _
  constructor
  · intro i j target place targetIs setters setter edit length here
    have width : target.width ∈ code.variants.map VariantCode.width :=
      List.mem_map.2 ⟨target, List.mem_of_getElem? targetIs, rfl⟩
    rw [called]
    exact eval_composing supports type place (once i j place) targetIs width length here edit rest
  · intro k inside absent setters edit
    rw [called, others k inside absent]
    exact eval_composing_other type absent setters edit

/-- Names that are apart lead to the methods that they were made for. -/
theorem settersMethod?_of_nodup {file : File} {shared : List SetterMethod}
    {variants : List (List SetterMethod)} (reads : ReadsMethods set code flavor shared variants)
    (methods : file.traitMethodsOn (settersName code.typeName flavor) =
      (shared ++ variants.flatten).map SetterMethod.routine)
    (apart : ((code.setterTexts set).map emitted?).Nodup) {method : SetterMethod}
    (member : method ∈ shared ++ variants.flatten) {text : String}
    (named : emitted? text = some (withoutRawMark method.name)) :
    settersMethod? file code flavor text = some method.routine := by
  have once : (((shared ++ variants.flatten).map SetterMethod.routine).map (·.name)).Nodup := by
    rw [reads.names] at apart
    refine List.Nodup.of_map some ?_
    rwa [List.map_map]
  rw [settersMethod?, named, Option.bind_some, methods]
  exact only?_of_nodup once (List.mem_map.2 ⟨method, member, rfl⟩)

end Routines

section Sufficiency

variable {Data : Type} {world : World Data} {set : VariantSet} {code : SetCode} {file : File}
  {flavor : Flavor}

/-- Fields whose names are apart in the code are apart as they are written. -/
theorem nodup_fieldNames (reads : Reads set code)
    (apart : ∀ variant ∈ code.variants, variant.fieldsApart) :
    ∀ variant ∈ set.variants, (variant.fields.map (·.name)).Nodup := by
  intro variant member
  obtain ⟨read, inside, readsVariant⟩ := reads.exists_variant member
  have names : variant.fields.map (fun field => emitted? field.name) =
      read.fields.map fun field => some (withoutRawMark field.name) := by
    refine Outcome.map_eq_of_mapM ?_ readsVariant.fields
    intro field fieldCode ok
    obtain ⟨name, nameOk, ok⟩ := Outcome.bind_eq_ok_iff.1 ok
    obtain ⟨_, -, ok⟩ := Outcome.bind_eq_ok_iff.1 ok
    obtain ⟨_, -, ok⟩ := Outcome.bind_eq_ok_iff.1 ok
    obtain ⟨_, -, ok⟩ := Outcome.bind_eq_ok_iff.1 ok
    obtain ⟨_, -, ok⟩ := Outcome.ite_bind_eq_ok_iff.1 ok
    cases Outcome.pure_eq_ok_iff.1 ok
    exact emitted?_of_identifier nameOk
  have once := apart read inside
  rw [VariantCode.fieldsApart, VariantCode.case, List.map_map] at once
  have codeOnce : (read.fields.map fun field => some (withoutRawMark field.name)).Nodup := by
    have split : (fun field : FieldCode => some (withoutRawMark field.name)) =
        some ∘ (Prod.fst ∘ fun field : FieldCode => (withoutRawMark field.name, field.type)) := rfl
    rw [split, ← List.map_map]
    exact once.map (Option.some_injective _)
  rw [← names] at codeOnce
  refine List.Nodup.of_map emitted? ?_
  rwa [List.map_map]

/-- An entry has one place in a variant at most. -/
theorem place_eq (reads : Reads set code)
    (apart : ∀ variant ∈ code.variants, variant.fieldsApart) {shared : SharedField}
    (member : shared ∈ code.shared) {i j : Nat} (place : (i + 1, j + 1) ∈ shared.occurrences)
    {other : Nat × Nat} (otherPlace : other ∈ shared.occurrences) (same : other.1 = i + 1) :
    other = (i + 1, j + 1) := by
  have once := nodup_fieldNames reads apart
  obtain ⟨variant, v, variantIs, placeIs⟩ :=
    (SharedField.mem_occurrences_iff reads.shared once member).1 place
  obtain ⟨second, w, secondIs, otherIs⟩ :=
    (SharedField.mem_occurrences_iff reads.shared once member).1 otherPlace
  obtain ⟨_, -, placed⟩ := Option.map_eq_some_iff.1 placeIs
  obtain ⟨_, -, otherPlaced⟩ := Option.map_eq_some_iff.1 otherIs
  have numbers : v = w := by
    rw [← otherPlaced] at same
    have first := (Prod.mk.inj placed).1
    simp at same
    omega
  subst numbers
  rw [variantIs, Option.some.injEq] at secondIs
  subst secondIs
  rw [placeIs, Option.some.injEq] at otherIs
  exact otherIs.symm

/-- Setters that change nothing leave all values as they are. -/
theorem mapM_unchanging {same : Value Data} (unchanging : Unchanging world flavor same)
    (values : List (Value Data)) :
    ((List.replicate values.length same).zip values).mapM
      (fun (setter, value) => edited world flavor setter value) = some values := by
  have each : ∀ row ∈ (List.replicate values.length same).zip values,
      edited world flavor row.1 row.2 = some row.2 := by
    intro row member
    rw [List.eq_of_mem_replicate (List.of_mem_zip member).1]
    exact unchanging row.2
  rw [Outcome.mapM_eq_some_map each, List.map_snd_zip (by simp)]

theorem shapes_of_files (reads : Reads set code) {files : List File}
    (filesAre : world.files = Support.file :: files)
    (family : FamilyFiles (set.variants.map (·.fields.length)) files)
    (summed : ∃ place, ∃ sums ∈ files, Family.Sum.file set.variants.length place = .ok sums)
    {i : Nat} {variant : VariantCode} (variantIs : code.variants[i]? = some variant) :
    ∃ shape, world.partType? (settersShape code flavor) (summand (i + 1)) = some shape ∧
      Shape.Spells world flavor variant.types shape := by
  obtain ⟨place, sums, present, generated⟩ := summed
  let shapes := code.variants.map fun variant => Shape.type flavor variant.types
  have count : shapes.length = set.variants.length := by
    rw [List.length_map]
    exact reads.count
  have shapeIs : shapes[i]? = some (Shape.type flavor variant.types) := by
    rw [List.getElem?_map, variantIs, Option.map_some]
  have width : variant.types.length ∈ set.variants.map (·.fields.length) := by
    rw [← reads.widths, VariantCode.types, List.length_map]
    exact List.mem_map.2 ⟨variant, List.mem_of_getElem? variantIs, rfl⟩
  have part := partType?_sum filesAre family present (count ▸ generated) shapeIs
  have target : settersShape code flavor = .applied (sumType shapes.length) shapes.reverse := by
    rw [← List.map_reverse, List.length_map]
    rfl
  rw [target]
  exact ⟨_, part, spells_type filesAre family flavor width⟩

/-- A prism whose names are apart is lawful. -/
theorem lawful_of_namesApart (reads : Reads set code) (emits : Emits set code file)
    {files : List File} (filesAre : world.files = Support.file :: files)
    (family : FamilyFiles (set.variants.map (·.fields.length)) files)
    (summed : ∃ place, ∃ sums ∈ files, Family.Sum.file set.variants.length place = .ok sums)
    (names : NamesApart set code) : Lawful world set code file flavor := by
  have supports : Supports world (code.variants.map VariantCode.width) := by
    rw [reads.widths]
    exact supports_of_files filesAre family
  have setIs : only? (file.methodsOn code.typeName) flavor.setName = some (code.setRoutine flavor) :=
    only?_transactionRoutine emits names.methods (setRoutine_mem code flavor)
  have transactionIs : only? (file.methodsOn code.typeName) flavor.transactionName =
      some (code.transactionRoutine flavor) :=
    only?_transactionRoutine emits names.methods (transactionRoutine_mem code flavor)
  obtain ⟨same, unchanging, made⟩ :=
    @apply_transaction_answering Data world code.typeName code flavor _ supports
  obtain ⟨shared, variants, readsMethods, methods⟩ := emits.setters flavor
  refine ⟨emits.enumeration, ⟨_, emits.settersAlias flavor, ?_⟩, ⟨_, setIs, ?_⟩,
    ⟨_, same, transactionIs, unchanging, ?_⟩, ⟨_, _, setIs, transactionIs, ?_⟩, ?_, ?_⟩
  case refine_1 =>
    intro i variant variantIs
    exact shapes_of_files reads filesAre family summed variantIs
  case refine_2 =>
    intro i k target subject targetIs subjectIs setters values transaction width length chosen
    rw [performed_setRoutine]
    by_cases same : i = k
    · subst same
      rw [targetIs, Option.some.injEq] at subjectIs
      subst subjectIs
      rw [if_pos rfl]
      exact eval_setBody_target names.cases names.fields targetIs width length chosen
    · rw [if_neg same]
      exact eval_setBody_other names.cases names.fields targetIs subjectIs same width length chosen
  case refine_3 =>
    intro block
    obtain ⟨transaction, transactionMade, answers⟩ := made block
    refine ⟨transaction, call_transactionRoutine block ▸ transactionMade, ?_⟩
    intro k subject values subjectIs _
    rw [answers, names.cases.answering? subjectIs]
    rfl
  case refine_4 =>
    intro block blockIs
    obtain ⟨transaction, transactionMade, answers⟩ := made block
    refine ⟨transaction, call_transactionRoutine block ▸ transactionMade, ?_⟩
    intro subject member values length
    obtain ⟨k, subjectIs⟩ := List.mem_iff_getElem?.1 member
    have chosen : apply world transaction [code.live subject values] =
        some (inSummand code.count (k + 1)
          (Shape.value (List.replicate values.length same))) := by
      rw [answers, names.cases.answering? subjectIs, Option.bind_some, blockIs, length]
    have width : (List.replicate values.length same).length = subject.width := by
      rw [List.length_replicate, length]
    rw [performed_setRoutine,
      eval_setBody_target names.cases names.fields subjectIs width length chosen,
      mapM_unchanging unchanging, Option.map_some]
  case refine_5 =>
    intro i j variant field variantIs fieldIs
    have variantMember : (variant, i) ∈ code.variants.zipIdx :=
      List.mk_mem_zipIdx_iff_getElem?.2 variantIs
    have fieldMember : (field, j) ∈ variant.fields.zipIdx :=
      List.mk_mem_zipIdx_iff_getElem?.2 fieldIs
    obtain ⟨ofVariant, inside, ofVariantOk⟩ :=
      Outcome.exists_of_mapM readsMethods.variants variantMember
    obtain ⟨method, methodInside, methodOk⟩ := Outcome.exists_of_mapM ofVariantOk fieldMember
    obtain ⟨named, type, body⟩ := variantMethod_eq_ok methodOk
    refine ⟨_, settersMethod?_of_nodup readsMethods methods names.setters
      (List.mem_append_right _ (List.mem_flatten.2 ⟨_, inside, methodInside⟩)) named, ?_⟩
    refine editsOnly_composing supports body ?_ fun _ _ _ => rfl
    intro v f place other otherPlace _
    rw [List.mem_singleton] at place otherPlace
    rw [otherPlace, place]
  case refine_6 =>
    intro entry member
    refine ⟨?_, fun i j => SharedField.mem_occurrences_iff_field reads.shared member⟩
    obtain ⟨method, inside, methodOk⟩ := Outcome.exists_of_mapM readsMethods.shared member
    obtain ⟨named, type, body⟩ := sharedMethod_eq_ok methodOk
    refine ⟨_, settersMethod?_of_nodup readsMethods methods names.setters
      (List.mem_append_left _ inside) named, ?_⟩
    refine editsOnly_composing supports body ?_ ?_
    · intro i j place other otherPlace same
      exact place_eq reads names.fields member place otherPlace same
    · intro k bound absent
      refine if_neg fun covers => ?_
      -- an entry that covers all variants has a place in this one
      have once := nodup_fieldNames reads names.fields
      rw [reads.count] at covers bound
      have placed := (SharedField.covers_iff reads.shared once member).1 covers
        _ k (List.getElem?_eq_getElem bound)
      obtain ⟨place, placeIs⟩ := Option.isSome_iff_exists.1 placed
      have inPlaces := (SharedField.mem_occurrences_iff reads.shared once member).2
        ⟨_, k, List.getElem?_eq_getElem bound, placeIs⟩
      obtain ⟨_, -, rfl⟩ := Option.map_eq_some_iff.1 placeIs
      exact absent _ inPlaces rfl

end Sufficiency

/-! ## Lawful prisms have names that are apart -/

section Necessity

variable {Data : Type} {world : World Data} {set : VariantSet} {code : SetCode} {file : File}

/-- A function that gives back what it gets. -/
def handBack : Value Data :=
  .closure "" [.input "value" .wild] (.named "value") []

theorem apply_handBack (value : Value Data) : apply world handBack [value] = some value := by
  simp [handBack, apply_closure]

/-- A function that always gives the same. -/
def always (value : Value Data) : Value Data :=
  .closure "" [.input "live" .wild] (.named "chosen") [("chosen", value)]

theorem apply_always (value argument : Value Data) :
    apply world (always value) [argument] = some value := by
  simp [always, apply_closure, List.lookup_cons]

theorem casesApart_of_lawful {widths : List Nat} (supports : Supports world widths)
    (emits : Emits set code file) (lawful : Lawful world set code file .direct) :
    code.casesApart := by
  obtain ⟨routine, same, only, -, made⟩ := lawful.transacts
  have own := eq_of_only? only
    (mem_methodsOn emits (transactionRoutine_mem code .direct)) rfl
  subst own
  obtain ⟨transaction, called, law⟩ := made handBack
  obtain ⟨_, -, answers⟩ :=
    @apply_transaction_answering Data world code.typeName code .direct _ supports
  obtain ⟨other, evaluated, answer⟩ := answers handBack
  rw [call_transactionRoutine, evaluated, Option.some.injEq] at called
  subst called
  refine SetCode.casesApart_of_answering? fun k subject subjectIs => ?_
  let values : List (Value Data) := List.replicate subject.width (.tuple [])
  have length : values.length = subject.width := List.length_replicate
  have agree := (answer subject values).symm.trans (law k subject values subjectIs length)
  simp only [apply_handBack] at agree
  obtain ⟨arm, answering, same⟩ := Option.bind_eq_some_iff.1 agree
  simp only [inSummand, Option.some.injEq, Value.case.injEq, List.cons.injEq, true_and,
    and_true] at same
  exact ⟨arm, answering, Nat.succ.inj (summand_injective same.1)⟩

theorem fieldsApart_of_lawful (apart : code.casesApart) (emits : Emits set code file)
    (lawful : Lawful world set code file .direct) :
    ∀ variant ∈ code.variants, variant.fieldsApart := by
  intro variant member
  by_contra repeated
  obtain ⟨i, variantIs⟩ := List.mem_iff_getElem?.1 member
  obtain ⟨routine, only, law⟩ := lawful.applies
  have own := eq_of_only? only (mem_methodsOn emits (setRoutine_mem code .direct)) rfl
  subst own
  let values : List (Value Data) := List.replicate variant.width (.tuple [])
  have length : values.length = variant.width := List.length_replicate
  have unchanging : Unchanging world .direct (handBack : Value Data) := apply_handBack
  have width : (List.replicate values.length (handBack : Value Data)).length = variant.width := by
    rw [List.length_replicate, length]
  let setters := inSummand code.count (i + 1)
    (Shape.value (List.replicate values.length (handBack : Value Data)))
  have chosen : apply world (always setters) [code.live variant values] = some setters :=
    apply_always setters _
  have result := law i i variant variant variantIs variantIs _ values _ width length chosen
  rw [performed_setRoutine, eval_setBody_stuck apart variantIs repeated length chosen, if_pos rfl,
    mapM_unchanging unchanging] at result
  cases result

theorem methodsApart_of_lawful (emits : Emits set code file)
    (lawful : ∀ flavor, Lawful world set code file flavor) :
    ∀ name ∈ Check.transactionMethods,
      name ∉ code.base.map (fun field => withoutRawMark field.name) ++
        code.variants.map fun variant => withoutRawMark variant.constructor := by
  intro name member
  have only : ∃ routine, only? (file.methodsOn code.typeName) name = some routine := by
    simp only [Check.transactionMethods, List.mem_cons, List.not_mem_nil, or_false] at member
    obtain rfl | rfl | rfl | rfl := member
    · obtain ⟨routine, only, -⟩ := (lawful .direct).applies
      exact ⟨routine, only⟩
    · obtain ⟨routine, _, only, -⟩ := (lawful .direct).transacts
      exact ⟨routine, only⟩
    · obtain ⟨routine, only, -⟩ := (lawful .asynchronous).applies
      exact ⟨routine, only⟩
    · obtain ⟨routine, _, only, -⟩ := (lawful .asynchronous).transacts
      exact ⟨routine, only⟩
  obtain ⟨routine, only⟩ := only
  exact notMem_of_only? emits member only

theorem settersApart_of_lawful (emits : Emits set code file)
    (lawful : Lawful world set code file .direct) :
    ((code.setterTexts set).map emitted?).Nodup := by
  obtain ⟨shared, variants, reads, methods⟩ := emits.setters .direct
  have found {text : String} {method : SetterMethod}
      (named : emitted? text = some (withoutRawMark method.name)) {routine : Routine}
      (only : settersMethod? file code .direct text = some routine) :
      (only? ((shared ++ variants.flatten).map SetterMethod.routine)
        method.routine.name).isSome := by
    rw [settersMethod?, named, Option.bind_some, methods] at only
    exact Option.isSome_iff_exists.2 ⟨routine, only⟩
  have once : (((shared ++ variants.flatten).map SetterMethod.routine).map (·.name)).Nodup := by
    refine nodup_of_only? fun routine member => ?_
    obtain ⟨method, inside, rfl⟩ := List.mem_map.1 member
    rcases List.mem_append.1 inside with inside | inside
    · obtain ⟨entry, entryMember, ok⟩ := Outcome.mem_of_mapM reads.shared inside
      obtain ⟨⟨routine, only, -⟩, -⟩ := lawful.sharedSetters entry entryMember
      exact found (sharedMethod_eq_ok ok).1 only
    · obtain ⟨ofVariant, methodsMember, inside⟩ := List.mem_flatten.1 inside
      obtain ⟨⟨variant, i⟩, variantMember, ofVariantOk⟩ :=
        Outcome.mem_of_mapM reads.variants methodsMember
      obtain ⟨⟨field, j⟩, fieldMember, ok⟩ := Outcome.mem_of_mapM ofVariantOk inside
      obtain ⟨routine, only, -⟩ := lawful.variantSetters i j variant field
        (List.mk_mem_zipIdx_iff_getElem?.1 variantMember)
        (List.mk_mem_zipIdx_iff_getElem?.1 fieldMember)
      exact found (variantMethod_eq_ok ok).1 only
  rw [reads.names]
  have names := once.map (Option.some_injective String)
  rwa [List.map_map] at names

/-- The names of a lawful prism are apart. -/
theorem namesApart_of_lawful {widths : List Nat} (supports : Supports world widths)
    (emits : Emits set code file) (lawful : ∀ flavor, Lawful world set code file flavor) :
    NamesApart set code := by
  have cases := casesApart_of_lawful supports emits (lawful .direct)
  exact ⟨cases, fieldsApart_of_lawful cases emits (lawful .direct),
    methodsApart_of_lawful emits lawful, settersApart_of_lawful emits (lawful .direct)⟩

end Necessity

/-- A generated prism is lawful, in both flavours, if and only if its names are apart. -/
theorem lawful_iff_namesApart {set : VariantSet} {around : Surroundings} {file : File}
    (generated : Prism.file set around = .ok file) {Data : Type} {world : World Data}
    {files : List File} (filesAre : world.files = Support.file :: files)
    (family : FamilyFiles (set.variants.map (·.fields.length)) files)
    (summed : ∃ place, ∃ sums ∈ files,
      Family.Sum.file set.variants.length place = .ok sums) :
    ∃ code, SetCode.ofSet set = .ok code ∧
      ((∀ flavor, Lawful world set code file flavor) ↔ NamesApart set code) := by
  obtain ⟨code, setCode, emits⟩ := emits_of_file generated
  refine ⟨code, setCode, ?_, ?_⟩
  · exact namesApart_of_lawful (supports_of_files filesAre family) emits
  · intro names flavor
    exact lawful_of_namesApart (reads_of_ofSet setCode) emits filesAre family summed names

/-! ## Two sets -/

/-- Products, sums and setters in packages beside each other. -/
def besideEachOther : Surroundings :=
  ⟨⟨"src", "", "products"⟩, ⟨"src", "", "sums"⟩, ⟨"src", "", "functions"⟩⟩

/-- A set with a variant for each kind of setter shape and a field that two of them share. -/
def shape : VariantSet :=
  let color : Field := .new "color" (.named "u32")
  (((VariantSet.new "Shape").withVariant (.new "Dot")).withVariant
    ((Variant.new "Circle").withField color)).withVariant
      (((Variant.new "Square").withField color).withField (.new "side" (.named "f64")))

/-- A set that gives two variants the same name, once with a blank behind it. -/
def twice : VariantSet :=
  let side : Field := .new "side" (.named "f64")
  ((VariantSet.new "Shape").withVariant ((Variant.new "A").withField side)).withVariant
    ((Variant.new "A ").withField side)

theorem exists_code_of_decide {set : VariantSet} {apart : Bool}
    (h : (match SetCode.ofSet set with
      | .ok code => decide (NamesApart set code) == apart
      | .error _ => false) = true) {code : SetCode} (setCode : SetCode.ofSet set = .ok code) :
    decide (NamesApart set code) = apart := by
  rw [setCode] at h
  exact beq_iff_eq.1 h

/-- The file of the first set. -/
def shapePrism : { file : File // Prism.file shape besideEachOther = .ok file } :=
  Outcome.value <| by
    simp only [Prism.file, productImports, typeImports, Ordered.sortedTexts,
      Ordered.sortedSet_eq_foldr]
    decide +kernel

/-- The file of the second set. -/
def twicePrism : { file : File // Prism.file twice besideEachOther = .ok file } :=
  Outcome.value <| by
    simp only [Prism.file, productImports, typeImports, Ordered.sortedTexts,
      Ordered.sortedSet_eq_foldr]
    decide +kernel

/-- The products of two factors beside these files. -/
def pairs : { file : File // Family.Product.file 2 besideEachOther.products = .ok file } :=
  Outcome.value (by decide +kernel)

theorem lawful_shape :
    ∃ file sums product code, Prism.file shape besideEachOther = .ok file ∧
      Family.Sum.file 3 besideEachOther.sums = .ok sums ∧
      Family.Product.file 2 besideEachOther.products = .ok product ∧
      SetCode.ofSet shape = .ok code ∧
      ∀ flavor, Lawful
        (⟨[Support.file, sums, product], fun _ _ => none, fun _ => none⟩ : World Unit) shape code
        file flavor := by
  obtain ⟨file, generated⟩ := shapePrism
  obtain ⟨sums, summed⟩ := Outcome.exists_of_isOk
    (show (Family.Sum.file 3 besideEachOther.sums).isOk = true by decide +kernel)
  obtain ⟨product, multiplied⟩ := pairs
  have family : FamilyFiles (shape.variants.map (·.fields.length)) [sums, product] := by
    constructor
    · intro other member
      rcases List.mem_cons.1 member with rfl | member
      · exact .inr ⟨3, _, summed⟩
      · rw [List.mem_singleton.1 member]
        exact .inl ⟨2, _, multiplied⟩
    · intro width member two_le
      have two : width = 2 := by
        simp [shape, VariantSet.withVariant, VariantSet.new, Variant.withField,
          Variant.new] at member
        omega
      exact ⟨_, product, by simp, two ▸ multiplied⟩
  let world : World Unit := ⟨[Support.file, sums, product], fun _ _ => none, fun _ => none⟩
  have filesAre : world.files = Support.file :: [sums, product] := rfl
  obtain ⟨code, setCode, lawful⟩ := lawful_iff_namesApart generated filesAre family
    ⟨_, sums, List.mem_cons_self, summed⟩
  have apart : decide (NamesApart shape code) = true :=
    exists_code_of_decide (by decide +kernel) setCode
  exact ⟨file, sums, product, code, generated, summed, multiplied, setCode,
    lawful.2 (of_decide_eq_true apart)⟩

/-- A set that passes all checks and is generated, and whose prism is not lawful. -/
theorem not_lawful_twice :
    Check.variantSet twice = .ok () ∧
      ∃ file sums code, Prism.file twice besideEachOther = .ok file ∧
        Family.Sum.file 2 besideEachOther.sums = .ok sums ∧
        SetCode.ofSet twice = .ok code ∧
        ¬ ∀ flavor, Lawful
          (⟨[Support.file, sums], fun _ _ => none, fun _ => none⟩ : World Unit) twice code file
          flavor := by
  obtain ⟨_, accepted⟩ := Outcome.exists_of_isOk
    (show (Check.variantSet twice).isOk = true by decide +kernel)
  obtain ⟨file, generated⟩ := twicePrism
  obtain ⟨sums, summed⟩ := Outcome.exists_of_isOk
    (show (Family.Sum.file 2 besideEachOther.sums).isOk = true by decide +kernel)
  obtain ⟨code, setCode, emits⟩ := emits_of_file generated
  refine ⟨accepted, file, sums, code, generated, summed, setCode, fun lawful => ?_⟩
  have family : FamilyFiles [] [sums] := by
    constructor
    · intro other member
      rw [List.mem_singleton.1 member]
      exact .inr ⟨2, _, summed⟩
    · intro width member
      cases member
  have apart : decide (NamesApart twice code) = false :=
    exists_code_of_decide (by decide +kernel) setCode
  exact of_decide_eq_false apart
    (namesApart_of_lawful (supports_of_files rfl family) emits lawful)

end Slotwise.Optics.Prism
