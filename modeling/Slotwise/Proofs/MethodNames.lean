import Slotwise.Proofs.Consistent
import Slotwise.Proofs.Lens
import Slotwise.Proofs.Spelled
/-!
# Names of generated methods

The type of a record or variant set and its setters have methods that are named after texts of the
model. The checks compare these texts, but the code bears what the texts are read as: without blanks
and comments around it, and with a raw mark that is no part of the name. So a check that passes
keeps the methods apart where each text is the name that it reads as, and in general the methods are
apart exactly if the names that are read are.

Main statement: `methods_apart_iff`.
-/

namespace Slotwise.Optics

open Code Naming Outcome
open Prism (emitted? emitted?_of_identifier besideEachOther)

/-- The type of a declaration has no two methods of one name, and neither have its setters. -/
structure MethodsApart (file : File) (type : String) : Prop where
  /-- The methods of the type. -/
  own : ((file.methodsOn type).map (·.name)).Nodup
  /-- The methods of the setters. -/
  setters : ∀ flavor, ((file.traitMethodsOn (settersName type flavor)).map (·.name)).Nodup

/-- The text is the name that it is read as. -/
def IsPlainName (text : String) : Prop :=
  emitted? text = some text

instance (text : String) : Decidable (IsPlainName text) :=
  inferInstanceAs (Decidable (emitted? text = some text))

theorem map_emitted?_of_plain {texts : List String} (plain : ∀ text ∈ texts, IsPlainName text) :
    texts.map emitted? = texts.map some :=
  List.map_congr_left plain

namespace Lens

/-! ## Records -/

/-- The names that the texts of a record's setters are read as leave all methods apart. -/
structure SettersApart (texts : List String) : Prop where
  /-- No two setters have one name. -/
  once : (texts.map emitted?).Nodup
  /-- No setter is called like the asynchronous one of a field. -/
  asynchronous : ∀ text ∈ texts, ∀ other ∈ texts, ∀ name, emitted? other = some name →
    emitted? text ≠ some (name ++ "_async")
  /-- No setter is called like one of the methods that every record has. -/
  reserved : ∀ text ∈ texts, ∀ name ∈ "new" :: Check.transactionMethods, emitted? text ≠ some name

theorem append_async_ne {name word : String} (short : ¬ "_async".toList <:+ word.toList) :
    name ++ "_async" ≠ word := by
  rintro rfl
  exact short ⟨name.toList, (String.toList_append).symm⟩

theorem append_async_inj {name other : String} (h : name ++ "_async" = other ++ "_async") :
    name = other := by
  have texts := congrArg String.toList h
  rw [String.toList_append, String.toList_append, List.append_cancel_right_eq] at texts
  exact String.toList_inj.1 texts

/-- The names of asynchronous setters are none of those that every record has, if those of the
setters are none. -/
theorem append_async_mem_iff {name : String} :
    name ++ "_async" ∈ "new" :: Check.transactionMethods ↔
      name = "set" ∨ name = "transaction" := by
  have set : name ++ "_async" = "set_async" ↔ name = "set" :=
    ⟨fun h => append_async_inj (h.trans (by decide : "set_async" = "set" ++ "_async")),
      fun h => by rw [h]; decide⟩
  have transaction : name ++ "_async" = "transaction_async" ↔ name = "transaction" :=
    ⟨fun h => append_async_inj
        (h.trans (by decide : "transaction_async" = "transaction" ++ "_async")),
      fun h => by rw [h]; decide⟩
  simp only [Check.transactionMethods, List.mem_cons, List.not_mem_nil, or_false, set, transaction,
    append_async_ne (by decide : ¬ "_async".toList <:+ "new".toList),
    append_async_ne (by decide : ¬ "_async".toList <:+ "set".toList),
    append_async_ne (by decide : ¬ "_async".toList <:+ "transaction".toList), false_or]

/-- When the names of all methods of a record are apart. -/
theorem nodup_methods_iff {names : List String} :
    (["new"] ++ names ++ names.map (· ++ "_async") ++ Check.transactionMethods).Nodup ↔
      names.Nodup ∧ (∀ name ∈ names, ∀ other ∈ names, name ≠ other ++ "_async") ∧
        ∀ name ∈ names, name ∉ "new" :: Check.transactionMethods := by
  have own : ("new" :: Check.transactionMethods).Nodup := by
    decide
  have grouped : (["new"] ++ names ++ names.map (· ++ "_async") ++
      Check.transactionMethods).Perm
      ((names ++ names.map (· ++ "_async")) ++ "new" :: Check.transactionMethods) := by
    rw [List.append_assoc ["new"], List.append_assoc ["new"], List.singleton_append]
    exact List.perm_middle.symm
  have asynchronous : (names.map (· ++ "_async")).Nodup ↔ names.Nodup :=
    List.nodup_map_iff fun _ _ h => append_async_inj h
  rw [grouped.nodup_iff, List.nodup_append, List.nodup_append, asynchronous]
  constructor
  · rintro ⟨⟨once, -, apart⟩, -, reserved⟩
    refine ⟨once, ?_, ?_⟩
    · intro name member other otherMember
      exact apart name member _ (List.mem_map_of_mem otherMember)
    · intro name member inside
      exact reserved name (List.mem_append_left _ member) name inside rfl
  · rintro ⟨once, apart, reserved⟩
    refine ⟨⟨once, once, ?_⟩, own, ?_⟩
    · intro name member _ otherMember
      obtain ⟨other, inside, rfl⟩ := List.mem_map.1 otherMember
      exact apart name member other inside
    · intro name member word inside
      rintro rfl
      rcases List.mem_append.1 member with member | member
      · exact reserved name member inside
      · -- what an asynchronous setter could be called like has a direct one beside it
        obtain ⟨setter, setterMember, rfl⟩ := List.mem_map.1 member
        refine reserved setter setterMember ?_
        rcases append_async_mem_iff.1 inside with rfl | rfl <;> decide

/-- What is asked of texts, said of the names that they are read as. -/
theorem settersApart_iff {texts names : List String} (read : texts.map emitted? = names.map some) :
    SettersApart texts ↔ names.Nodup ∧ (∀ name ∈ names, ∀ other ∈ names, name ≠ other ++ "_async") ∧
      ∀ name ∈ names, name ∉ "new" :: Check.transactionMethods := by
  have mem {name : String} : name ∈ names ↔ ∃ text ∈ texts, emitted? text = some name := by
    rw [← List.mem_map, read, List.mem_map_of_injective (Option.some_injective String)]
  have once : (texts.map emitted?).Nodup ↔ names.Nodup := by
    rw [read, List.nodup_map_iff (Option.some_injective String)]
  constructor
  · rintro ⟨apart, asynchronous, reserved⟩
    refine ⟨once.1 apart, ?_, ?_⟩
    · intro name member other otherMember
      rintro rfl
      obtain ⟨text, inside, textRead⟩ := mem.1 member
      obtain ⟨otherText, otherInside, otherRead⟩ := mem.1 otherMember
      exact asynchronous text inside otherText otherInside other otherRead textRead
    · intro name member inside
      obtain ⟨text, among, textRead⟩ := mem.1 member
      exact reserved text among name inside textRead
  · rintro ⟨apart, asynchronous, reserved⟩
    refine ⟨once.2 apart, ?_, ?_⟩
    · intro text inside otherText otherInside other otherRead textRead
      exact asynchronous _ (mem.2 ⟨text, inside, textRead⟩) other
        (mem.2 ⟨otherText, otherInside, otherRead⟩) rfl
    · intro text inside name member textRead
      exact reserved name (mem.2 ⟨text, inside, textRead⟩) member

section

variable {record : Record} {code : RecordCode} {file : File}

/-- The setters are called what their texts are read as. -/
theorem Reads.map_setterNames (reads : Reads record code) :
    (Check.setterNames record).map emitted? =
      (code.setterNames.map withoutRawMark).map some := by
  have names := map_eq_of_mapM (fun _ _ ok => emitted?_of_identifier ok) reads.setterNames
  rw [Check.setterNames, List.map_map, List.map_map]
  exact names

/-- The methods of a record are apart exactly if its setters are, by the names that are read. -/
theorem methodsApart_iff (reads : Reads record code) (emits : Emits code file) :
    MethodsApart file code.typeName ↔ SettersApart (Check.setterNames record) := by
  have own : ((file.methodsOn code.typeName).map (·.name)).Nodup ↔
      SettersApart (Check.setterNames record) := by
    rw [emits.methods, (code.perm_methodNames reads.setterNames_length).nodup_iff,
      settersApart_iff reads.map_setterNames]
    exact nodup_methods_iff
  constructor
  · intro apart
    exact own.1 apart.own
  · intro apart
    refine ⟨own.2 apart, ?_⟩
    intro flavor
    rw [emits.setters, names_setterMethods reads]
    exact ((settersApart_iff reads.map_setterNames).1 apart).1

/-- The check keeps setters apart whose texts are the names that they are read as. -/
theorem settersApart_of_plain (checked : Check.record record = .ok ())
    (plain : ∀ text ∈ Check.setterNames record, IsPlainName text) :
    SettersApart (Check.setterNames record) := by
  simp only [Check.record, then_eq_ok_iff, guard_eq_ok_iff, Check.unique_eq_ok_iff] at checked
  obtain ⟨-, -, -, -, -, -, once⟩ := checked
  rw [settersApart_iff (map_emitted?_of_plain plain)]
  exact nodup_methods_iff.1 once

end

end Lens

namespace Prism

/-! ## Variant sets -/

/-- What the texts of the setters of a set's fields are read as. In the text for a field of one
variant stands the name that the field has in code. -/
def setterReadings (set : VariantSet) (shared : List SharedField) : List (Option String) :=
  shared.map (fun field => emitted? (setter field.name set.settersSuffix)) ++
    set.variants.flatMap fun variant => variant.fields.map fun field =>
      (Node.identifier? field.name).bind fun name =>
        emitted? (variantSetter name variant.name set.settersSuffix)

/-- The names that the texts of a set are read as leave all methods apart. -/
structure TextsApart (set : VariantSet) : Prop where
  /-- The getters of base fields, the constructors and the methods around transactions. -/
  methods : ((set.fields.map (·.name) ++
      set.variants.map fun variant => snakeCase variant.name).map emitted? ++
    Check.transactionMethods.map some).Nodup
  /-- The setters. -/
  setters : ∀ shared, SharedField.collect set = .ok shared → (setterReadings set shared).Nodup

/-- The texts of a set that methods are named after are the names that they are read as. -/
structure PlainTexts (set : VariantSet) : Prop where
  /-- The base fields. -/
  base : ∀ field ∈ set.fields, IsPlainName field.name
  /-- The constructors. -/
  constructors : ∀ variant ∈ set.variants, IsPlainName (snakeCase variant.name)
  /-- The fields of variants. -/
  fields : ∀ field ∈ Check.variantFields set, Node.identifier? field.name = some field.name
  /-- The setters of fields that variants share. -/
  shared : ∀ field ∈ Check.variantFields set, IsPlainName (setter field.name set.settersSuffix)
  /-- The setters of fields of one variant. -/
  setters : ∀ variant ∈ set.variants, ∀ field ∈ variant.fields,
    IsPlainName (variantSetter field.name variant.name set.settersSuffix)

section

variable {set : VariantSet} {code : SetCode} {file : File}

/-- The getters and constructors are called what their texts are read as. -/
theorem Reads.map_methods (reads : Reads set code) :
    (set.fields.map (·.name) ++ set.variants.map fun variant => snakeCase variant.name).map
        emitted? =
      (code.base.map (fun field => withoutRawMark field.name) ++
        code.variants.map fun variant => withoutRawMark variant.constructor).map some := by
  have base : set.fields.map (fun field => emitted? field.name) =
      code.base.map fun field => some (withoutRawMark field.name) :=
    map_eq_of_mapM (fun _ _ ok => by rw [emitted?, identifier?_of_ofField ok, Option.map_some])
      reads.base
  have constructors : set.variants.map (fun variant => emitted? (snakeCase variant.name)) =
      code.variants.map fun variant => some (withoutRawMark variant.constructor) := by
    have related := reads.variants
    generalize set.variants = variants at related ⊢
    generalize code.variants = codes at related ⊢
    induction related with
    | nil => rfl
    | cons head _ ih =>
      rw [List.map_cons, List.map_cons, ih, emitted?_of_identifier head.constructor]
  simp only [List.map_append, List.map_map, Function.comp_def, base, constructors]

/-- The setters are called what their texts are read as. -/
theorem Reads.setterReadings_eq (reads : Reads set code) :
    setterReadings set code.shared = (code.setterTexts set).map emitted? := by
  have fields {variant : Variant} {read : VariantCode}
      (ofVariant : ReadsVariant set code.base variant read) :
      (variant.fields.map fun field => (Node.identifier? field.name).bind fun name =>
        emitted? (variantSetter name variant.name set.settersSuffix)) =
      read.fields.map fun field =>
        emitted? (variantSetter field.name read.written set.settersSuffix) := by
    refine map_eq_of_mapM (fun field fieldCode ok => ?_) ofVariant.fields
    rw [identifier?_of_ofField ok, Option.bind_some, ofVariant.written]
  have variants : (set.variants.map fun variant => variant.fields.map fun field =>
        (Node.identifier? field.name).bind fun name =>
          emitted? (variantSetter name variant.name set.settersSuffix)) =
      code.variants.map fun read => read.fields.map fun field =>
        emitted? (variantSetter field.name read.written set.settersSuffix) := by
    have related := reads.variants
    generalize set.variants = variants at related ⊢
    generalize code.variants = codes at related ⊢
    induction related with
    | nil => rfl
    | cons head _ ih => rw [List.map_cons, List.map_cons, ih, fields head]
  rw [setterReadings, SetCode.setterTexts, List.flatMap_def, variants, List.map_append,
    List.map_flatMap, List.flatMap_def]
  simp only [List.map_map, Function.comp_def]

theorem names_setterMethods (reads : Reads set code) (emits : Emits set code file)
    (flavor : Flavor) :
    ((file.traitMethodsOn (settersName code.typeName flavor)).map (·.name)).map some =
      setterReadings set code.shared := by
  obtain ⟨shared, variants, methods, methodsAre⟩ := emits.setters flavor
  rw [methodsAre, reads.setterReadings_eq, methods.names, List.map_map]
  rfl

/-- The methods of a set are apart exactly if the names are that its texts are read as. -/
theorem methodsApart_iff (reads : Reads set code) (emits : Emits set code file) :
    MethodsApart file code.typeName ↔ TextsApart set := by
  have own : ((file.methodsOn code.typeName).map (·.name)).map some =
      (set.fields.map (·.name) ++ set.variants.map fun variant => snakeCase variant.name).map
        emitted? ++ Check.transactionMethods.map some := by
    obtain ⟨others, methods, names⟩ := emits.methods
    rw [methods, List.map_append, names, List.map_append, reads.map_methods]
    rfl
  have once {names : List String} : (names.map some).Nodup ↔ names.Nodup :=
    List.nodup_map_iff (Option.some_injective String)
  constructor
  · intro apart
    refine ⟨?_, ?_⟩
    · rw [← own, once]
      exact apart.own
    · intro shared collected
      cases reads.shared.symm.trans collected
      rw [← names_setterMethods reads emits .direct, once]
      exact apart.setters .direct
  · intro apart
    refine ⟨?_, ?_⟩
    · rw [← once, own]
      exact apart.methods
    · intro flavor
      rw [← once, names_setterMethods reads emits]
      exact apart.setters _ reads.shared

/-- The check keeps methods apart whose texts are the names that they are read as. -/
theorem textsApart_of_plain (checked : Check.variantSet set = .ok ()) (plain : PlainTexts set) :
    TextsApart set := by
  have legible := Check.legible_of_variantSet checked
  have distinct := SharedField.distinctFields_of_variantSet checked
  constructor
  · have texts : ∀ text ∈ set.fields.map (·.name) ++
        set.variants.map (fun variant => snakeCase variant.name), IsPlainName text := by
      simp only [List.forall_mem_append, List.forall_mem_map]
      exact ⟨plain.base, plain.constructors⟩
    rw [map_emitted?_of_plain texts, ← List.map_append]
    exact legible.methods.map (Option.some_injective String)
  · intro shared collected
    obtain ⟨_, collected', once⟩ := legible.setters
    cases collected.symm.trans collected'
    have readings : setterReadings set shared = (Check.setSetters set shared).map some := by
      have names := SharedField.names_of_collect distinct collected
      rw [setterReadings, Check.setSetters, List.map_append, List.map_map, List.map_flatMap]
      congr 1
      · refine List.map_congr_left fun field member => ?_
        have inside := List.mem_map_of_mem (f := SharedField.name) member
        rw [names, List.mem_filter, List.mem_eraseDups, List.mem_map] at inside
        obtain ⟨⟨own, ownMember, same⟩, -⟩ := inside
        rw [Function.comp_apply, ← same]
        exact plain.shared own ownMember
      · refine List.flatMap_congr fun variant member => ?_
        rw [List.map_map]
        refine List.map_congr_left fun field inside => ?_
        rw [plain.fields field (List.mem_flatMap.2 ⟨variant, member, inside⟩)]
        exact plain.setters variant member field inside
    rw [readings]
    exact once.map (Option.some_injective String)

end

end Prism

/-! ## Accepted declarations -/

/-- The methods of a record that passes its check are apart exactly if the names are that the texts
of its setters are read as, and likewise the methods of a variant set. Where each text is the name
that it is read as, the check keeps them apart. -/
theorem methods_apart_iff (around : Surroundings) :
    (∀ record file, Check.record record = .ok () → Lens.file record around = .ok file →
      ∃ type, emitted? record.name = some type ∧
        (MethodsApart file type ↔ Lens.SettersApart (Check.setterNames record)) ∧
        ((∀ text ∈ Check.setterNames record, IsPlainName text) → MethodsApart file type)) ∧
    ∀ set file, Check.variantSet set = .ok () → Prism.file set around = .ok file →
      ∃ type, emitted? set.name = some type ∧
        (MethodsApart file type ↔ Prism.TextsApart set) ∧
        (Prism.PlainTexts set → MethodsApart file type) := by
  constructor
  · intro record file checked generated
    obtain ⟨code, codeOk, emits⟩ := Lens.emits_of_file generated
    have reads := Lens.reads_of_ofRecord codeOk
    have apart := Lens.methodsApart_iff reads emits
    refine ⟨code.typeName, emitted?_of_identifier reads.name, apart, ?_⟩
    intro plain
    exact apart.2 (Lens.settersApart_of_plain checked plain)
  · intro set file checked generated
    obtain ⟨code, setCode, emits⟩ := Prism.emits_of_file generated
    have reads := Prism.reads_of_ofSet setCode
    have apart := Prism.methodsApart_iff reads emits
    refine ⟨code.typeName, emitted?_of_identifier reads.name, apart, ?_⟩
    intro plain
    exact apart.2 (Prism.textsApart_of_plain checked plain)

/-- A record whose field bears a raw mark, and a field called like the asynchronous setter of it. -/
def Lens.rawMarked : Record :=
  ((Record.new "Point").withField (.new "r#type" (.named "f64"))).withField
    (.new "type_async" (.named "f64"))

/-- Its file. -/
def rawMarkedLens : { file : File // Lens.file Lens.rawMarked besideEachOther = .ok file } :=
  value <| by
    simp only [Lens.file, productImports, typeImports, Ordered.sortedTexts,
      Ordered.sortedSet_eq_foldr]
    decide +kernel

/-- A set whose constructor of one variant is called like the method that applies a transaction. -/
def Prism.settable : VariantSet :=
  ((VariantSet.new "Shape").withVariant (.new "Dot")).withVariant (.new "r#Set")

/-- Its file. -/
def settablePrism : { file : File // Prism.file Prism.settable besideEachOther = .ok file } :=
  value <| by
    simp only [Prism.file, productImports, typeImports, Ordered.sortedTexts,
      Ordered.sortedSet_eq_foldr]
    decide +kernel

theorem methods_apart_point_shape :
    (∃ file, Check.record Lens.point = .ok () ∧ Lens.file Lens.point besideEachOther = .ok file ∧
      (∀ text ∈ Check.setterNames Lens.point, IsPlainName text) ∧ MethodsApart file "Point") ∧
    ∃ file, Check.variantSet Prism.shape = .ok () ∧
      Prism.file Prism.shape besideEachOther = .ok file ∧ Prism.PlainTexts Prism.shape ∧
      MethodsApart file "Shape" := by
  constructor
  · obtain ⟨_, checked⟩ := exists_of_isOk
      (show (Check.record Lens.point).isOk = true by decide +kernel)
    obtain ⟨file, generated⟩ := Lens.pointLens
    have plain : ∀ text ∈ Check.setterNames Lens.point, IsPlainName text := by
      decide +kernel
    obtain ⟨type, typeIs, -, apart⟩ := (methods_apart_iff _).1 _ _ checked generated
    cases typeIs.symm.trans (show emitted? Lens.point.name = some "Point" by decide +kernel)
    exact ⟨file, checked, generated, plain, apart plain⟩
  · obtain ⟨_, checked⟩ := exists_of_isOk
      (show (Check.variantSet Prism.shape).isOk = true by decide +kernel)
    obtain ⟨file, generated⟩ := Prism.shapePrism
    have plain : Prism.PlainTexts Prism.shape :=
      ⟨by decide +kernel, by decide +kernel, by decide +kernel, by decide +kernel,
        by decide +kernel⟩
    obtain ⟨type, typeIs, -, apart⟩ := (methods_apart_iff _).2 _ _ checked generated
    cases typeIs.symm.trans (show emitted? Prism.shape.name = some "Shape" by decide +kernel)
    exact ⟨file, checked, generated, plain, apart plain⟩

/-- The check passes a record and a set whose types have two methods of one name in their files. -/
theorem not_methods_apart :
    (∃ file, Check.record Lens.rawMarked = .ok () ∧
      Lens.file Lens.rawMarked besideEachOther = .ok file ∧ ¬ MethodsApart file "Point") ∧
    ∃ file, Check.variantSet Prism.settable = .ok () ∧
      Prism.file Prism.settable besideEachOther = .ok file ∧ ¬ MethodsApart file "Shape" := by
  constructor
  · obtain ⟨_, checked⟩ := exists_of_isOk
      (show (Check.record Lens.rawMarked).isOk = true by decide +kernel)
    obtain ⟨file, generated⟩ := rawMarkedLens
    obtain ⟨code, codeOk, emits⟩ := Lens.emits_of_file generated
    have reads := Lens.reads_of_ofRecord codeOk
    have typeIs : code.typeName = "Point" := Option.some.inj
      ((emitted?_of_identifier reads.name).symm.trans
        (show emitted? Lens.rawMarked.name = some "Point" by decide +kernel))
    refine ⟨file, checked, generated, ?_⟩
    rw [← typeIs, Lens.methodsApart_iff reads emits]
    intro apart
    exact apart.asynchronous "type_async" (by decide +kernel) "r#type" (by decide +kernel) "type"
      (by decide +kernel) (by decide +kernel)
  · obtain ⟨_, checked⟩ := exists_of_isOk
      (show (Check.variantSet Prism.settable).isOk = true by decide +kernel)
    obtain ⟨file, generated⟩ := settablePrism
    obtain ⟨code, setCode, emits⟩ := Prism.emits_of_file generated
    have reads := Prism.reads_of_ofSet setCode
    have typeIs : code.typeName = "Shape" := Option.some.inj
      ((emitted?_of_identifier reads.name).symm.trans
        (show emitted? Prism.settable.name = some "Shape" by decide +kernel))
    have repeated : ¬ ((Prism.settable.fields.map (·.name) ++
          Prism.settable.variants.map fun variant => snakeCase variant.name).map emitted? ++
        Check.transactionMethods.map some).Nodup := by
      decide +kernel
    refine ⟨file, checked, generated, ?_⟩
    rw [← typeIs, Prism.methodsApart_iff reads emits]
    intro apart
    exact repeated apart.methods

end Slotwise.Optics
