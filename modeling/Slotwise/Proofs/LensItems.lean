import Slotwise.Check.Declaration
import Slotwise.Proofs.PrismItems
import Slotwise.Proofs.Records
/-!
# The items of a lens

What the file of a record declares: its struct, the aliases for its setters, and the methods of both
(`emits_of_file`). Every field has two methods on the record, which edit it directly and
asynchronously, and one on the setters of each flavour, which composes an edit into its slot.
-/

namespace Slotwise.Code

open Naming

/-- A struct with named fields. -/
structure Struct where
  /-- The name of the type. -/
  name : String
  /-- The names and types of the fields. -/
  fields : List (String × Node)

namespace Node

/-- The struct that an item declares. -/
def struct? : Node → Option Struct
  | attributed _ item => item.struct?
  | visible _ item => item.struct?
  | fieldStruct "struct" name _ _ parts _ => some ⟨withoutRawMark name, parts.filterMap part?⟩
  | _ => none

@[simp] theorem struct?_behind (attributes : List Node) (node : Node) :
    (behind attributes node).struct? = node.struct? := by
  unfold behind
  split <;> simp [struct?]

theorem struct?_of_isUse {node : Node} (h : node.isUse = true) : node.struct? = none := by
  fun_induction isUse node with
  | case1 _ item ih => exact ih h
  | case2 _ item ih => exact ih h
  | case3 => rfl
  | case4 => cases h

end Node

/-- The first struct of a file. -/
def File.struct? (file : File) : Option Struct :=
  file.items.findSome? Node.struct?

end Slotwise.Code

namespace Slotwise.Optics

open Code Naming

/-- What stands behind the name of a setter in the name of the method that edits a field. -/
def Flavor.editSuffix : Flavor → String
  | direct => ""
  | asynchronous => "_async"

namespace Lens

open Prism (names?_applyTo markFree_of_identifier withoutRawMark_settersName settersName_injective)

/-! ## Routines -/

namespace RecordCode

variable (code : RecordCode) (flavor : Flavor)

/-- The type of the setters of a record. -/
def setters : Node :=
  code.parameters.applyTo (settersName code.typeName flavor)

/-- The fields with the names of their setters. -/
def rows : List (FieldCode × String) :=
  code.fields.zip code.setterNames

/-- The function that makes a record of its fields. -/
def newRoutine : Routine :=
  ⟨"new", false, FieldCode.inputs code.fields,
    [.fields (.named "Self") (FieldCode.initializers code.fields) false]⟩

/-- The method that edits one field. -/
def editRoutine (row : FieldCode × String) : Routine :=
  let output := match flavor with
    | .direct => row.1.type
    | .asynchronous => .named (code.parameters.fresh "Fut")
  ⟨withoutRawMark row.2 ++ flavor.editSuffix, flavor == .asynchronous,
    [.self, .input "f" (.someFunction "FnOnce" row.1.type output)],
    [selfUpdated code row.1 (flavor.applySetter "f" (.member .self row.1.name))]⟩

/-- The methods that edit single fields. -/
def editRoutines : List Routine :=
  code.rows.flatMap fun row =>
    [code.editRoutine .direct row, code.editRoutine .asynchronous row]

/-- The method that applies a transaction. -/
def setRoutine : Routine :=
  ⟨flavor.setName, flavor == .asynchronous,
    [.self, .input "transaction" (transactionType (code.setters flavor))], setBody code flavor⟩

/-- The function that makes a transaction. -/
def transactionRoutine : Routine :=
  ⟨flavor.transactionName, false,
    [.input "block" (.someFunction "FnOnce" (code.setters flavor) (code.setters flavor))],
    [transactionBody code flavor]⟩

/-- The routines around transactions. -/
def transactionRoutines : List Routine :=
  [.direct, .asynchronous].flatMap fun flavor =>
    [code.setRoutine flavor, code.transactionRoutine flavor]

/-- The methods of the type. -/
def routines : List Routine :=
  code.newRoutine :: (code.editRoutines ++ code.transactionRoutines)

/-- The methods of the setters. -/
def setterMethods : List SetterMethod :=
  code.rows.zipIdx.map fun ((field, name), i) =>
    ⟨name, flavor.edit field.type, s!" Chains `f` after the current setter of `{field.name}`.",
      Shape.composeSlot flavor code.width (i + 1) field.type "self"⟩

/-- The names of the methods of the type. -/
def methodNames : List String :=
  let setters := code.setterNames.map withoutRawMark
  ["new"] ++ setters ++ setters.map (· ++ "_async") ++ Check.transactionMethods

end RecordCode

/-- The names of the methods are what the fields' setters make them. -/
theorem RecordCode.perm_methodNames (code : RecordCode)
    (each : code.setterNames.length = code.fields.length) :
    (code.routines.map (·.name)).Perm code.methodNames := by
  have setters : code.rows.map (fun row => withoutRawMark row.2) =
      code.setterNames.map withoutRawMark := by
    have split : (fun row : FieldCode × String => withoutRawMark row.2) =
        withoutRawMark ∘ Prod.snd := rfl
    rw [split, ← List.map_map, RecordCode.rows, List.map_snd_zip each.le]
  have edits : code.editRoutines.map (·.name) =
      code.rows.flatMap fun row =>
        [withoutRawMark row.2 ++ ""] ++ [withoutRawMark row.2 ++ "_async"] := by
    rw [RecordCode.editRoutines, List.map_flatMap]
    rfl
  have apart := List.flatMap_append_perm code.rows
    (fun row => [withoutRawMark row.2 ++ ""]) fun row => [withoutRawMark row.2 ++ "_async"]
  rw [← List.map_eq_flatMap, ← List.map_eq_flatMap] at apart
  have direct : code.rows.map (fun row => withoutRawMark row.2 ++ "") =
      code.setterNames.map withoutRawMark := by
    rw [← setters]
    exact List.map_congr_left fun row _ => String.append_empty
  have asynchronous : code.rows.map (fun row => withoutRawMark row.2 ++ "_async") =
      (code.setterNames.map withoutRawMark).map (· ++ "_async") := by
    rw [← setters, List.map_map]
    rfl
  rw [direct, asynchronous] at apart
  rw [RecordCode.routines, List.map_cons, List.map_append, edits, RecordCode.methodNames]
  have transactions : code.transactionRoutines.map (·.name) = Check.transactionMethods := rfl
  rw [transactions]
  exact ((apart.symm.append_right _).cons _)

/-! ## The items -/

/-- What the file of a record declares. -/
structure Emits (code : RecordCode) (file : File) : Prop where
  /-- The struct. -/
  struct : file.struct? =
    some ⟨code.typeName, code.fields.map fun field => (withoutRawMark field.name, field.type)⟩
  /-- The aliases for the setters. -/
  settersAlias : ∀ flavor, file.alias? (settersName code.typeName flavor) =
    some (Shape.type flavor code.types)
  /-- The methods of the type. -/
  methods : file.methodsOn code.typeName = code.routines
  /-- The methods of the setters. -/
  setters : ∀ flavor, file.traitMethodsOn (settersName code.typeName flavor) =
    (code.setterMethods flavor).map SetterMethod.routine

/-- The items of the file of a record behind the imports. -/
def RecordCode.items (code : RecordCode) (record : Record) (simple : List (List Node))
    (ops asyncOps : List Node) : List Node :=
  [struct record code,
    typeAlias s!" Setters of every field of [`{code.owner}`]; field i is factor i."
      (settersName code.typeName .direct) code.parameters.declared
      (Shape.type .direct code.types),
    typeAlias s!" Asynchronous setters of every field of [`{code.owner}`]."
      (settersName code.typeName .asynchronous) code.parameters.declared
      (Shape.type .asynchronous code.types),
    .methodsOf code.parameters.declared code.type (constructor code :: simple.flatten),
    .methodsOf code.parameters.declaredOwned code.type
      (transactional code (code.setters .direct) (code.setters .asynchronous))] ++
  (ops ++ asyncOps)

/-- The file of a record from its first import to its last item. -/
theorem parts_of_file {record : Record} {around : Surroundings} {file : File}
    (h : Lens.file record around = .ok file) :
    ∃ code, ∃ paths : List (List String), ∃ own simple ops asyncOps,
      RecordCode.ofRecord record = .ok code ∧
      (∃ types, typeImports code.owner types = .ok own) ∧
      code.rows.mapM (fun row => simpleSetters code row.1 row.2) = .ok simple ∧
      setterOps code .direct (code.setters .direct) = .ok ops ∧
      setterOps code .asynchronous (code.setters .asynchronous) = .ok asyncOps ∧
      file.items = [.importing ["std", "future", "Future"]] ++
        serializationImport record.serializable ++ paths.map Node.importing ++ own ++
        code.items record simple ops asyncOps := by
  obtain ⟨code, codeOk, h⟩ := Outcome.bind_eq_ok_iff.1 h
  obtain ⟨setters, settersOk, h⟩ := Outcome.bind_eq_ok_iff.1 h
  obtain ⟨asyncSetters, asyncSettersOk, h⟩ := Outcome.bind_eq_ok_iff.1 h
  obtain ⟨support, supportOk, h⟩ := Outcome.bind_eq_ok_iff.1 h
  obtain ⟨products, productsOk, h⟩ := Outcome.bind_eq_ok_iff.1 h
  obtain ⟨own, ownOk, h⟩ := Outcome.bind_eq_ok_iff.1 h
  obtain ⟨simple, simpleOk, h⟩ := Outcome.bind_eq_ok_iff.1 h
  obtain ⟨ops, opsOk, h⟩ := Outcome.bind_eq_ok_iff.1 h
  obtain ⟨asyncOps, asyncOpsOk, h⟩ := Outcome.bind_eq_ok_iff.1 h
  have settersIs : setters = settersName code.typeName .direct := legal_eq_ok settersOk
  have asyncSettersIs : asyncSetters = settersName code.typeName .asynchronous :=
    legal_eq_ok asyncSettersOk
  subst settersIs asyncSettersIs
  obtain ⟨supportPaths, -, rfl⟩ := supportTargets_of_supportImports supportOk
  obtain ⟨productPaths, -, rfl⟩ := productTargets_of_productImports productsOk
  rw [← Outcome.pure_eq_ok_iff.1 h]
  refine ⟨code, supportPaths ++ productPaths, own, simple, ops, asyncOps, codeOk, ⟨_, ownOk⟩,
    simpleOk, opsOk, asyncOpsOk, ?_⟩
  simp only [RecordCode.items, List.map_append, List.append_assoc]
  rfl

theorem items_of_file {record : Record} {around : Surroundings} {file : File}
    (h : Lens.file record around = .ok file) :
    ∃ code imports simple ops asyncOps, RecordCode.ofRecord record = .ok code ∧
      (∀ node ∈ imports, node.isUse = true) ∧
      code.rows.mapM (fun row => simpleSetters code row.1 row.2) = .ok simple ∧
      setterOps code .direct (code.setters .direct) = .ok ops ∧
      setterOps code .asynchronous (code.setters .asynchronous) = .ok asyncOps ∧
      file.items = imports ++ code.items record simple ops asyncOps := by
  obtain ⟨code, paths, own, simple, ops, asyncOps, codeOk, ⟨_, ownOk⟩, simpleOk, opsOk, asyncOpsOk,
    itemsAre⟩ := parts_of_file h
  refine ⟨code, _, simple, ops, asyncOps, codeOk, ?_, simpleOk, opsOk, asyncOpsOk, itemsAre⟩
  rw [← List.filter_eq_self]
  simp only [List.filter_append, filter_isUse_serializationImport, Node.filter_isUse_importing,
    filter_isUse_typeImports ownOk]
  rfl

/-! ## What the items declare -/

theorem struct?_struct (record : Record) (code : RecordCode) :
    (struct record code).struct? =
      some ⟨code.typeName, code.fields.map fun field => (withoutRawMark field.name, field.type)⟩ := by
  have part (field : FieldCode) :
      (Node.behind field.attributes (.publicField field.name field.type)).part? =
        some (withoutRawMark field.name, field.type) := by
    rw [Node.part?_behind]
    rfl
  rw [struct, Node.struct?_behind, Node.isPublic, Node.struct?, Node.struct?,
    filterMap_map_some part]
  rfl

theorem lookup_aliases {code : RecordCode} (record : Record)
    (markFree : '#' ∉ code.typeName.toList) (simple : List (List Node)) (ops asyncOps : List Node)
    (flavor : Flavor) :
    ((code.items record simple ops asyncOps).filterMap Node.alias?).lookup
      (settersName code.typeName flavor) = some (Shape.type flavor code.types) := by
  have none : (struct record code).alias? = none := by
    rw [struct, Node.alias?_behind]
    rfl
  have plain := withoutRawMark_settersName markFree
  have aliasIs (doc : String) (other : Flavor) (generics : Option Node) :
      (typeAlias doc (settersName code.typeName other) generics
        (Shape.type other code.types)).alias? =
        some (settersName code.typeName other, Shape.type other code.types) :=
    congrArg (fun name => some (name, Shape.type other code.types)) (plain other)
  rw [RecordCode.items, List.filterMap_append, List.filterMap_cons_none none,
    List.filterMap_cons_some (aliasIs _ .direct _),
    List.filterMap_cons_some (aliasIs _ .asynchronous _)]
  cases flavor with
  | direct => exact List.lookup_cons_self
  | asynchronous =>
    have other : settersName code.typeName .asynchronous ≠ settersName code.typeName .direct :=
      (settersName_injective _).ne (by decide)
    rw [List.cons_append, List.lookup_cons, beq_false_of_ne other]
    exact List.lookup_cons_self

theorem methods_of_setterOps {code : RecordCode} {flavor : Flavor} {setters : Node}
    {ops : List Node} (h : setterOps code flavor setters = .ok ops) {name : String}
    (settersIs : setters.names? = some [name]) (type : String) :
    ops.flatMap (Node.methodsOn type) = [] ∧
      ops.flatMap (Node.traitMethodsOn type) =
        if name = type then (code.setterMethods flavor).map SetterMethod.routine else [] := by
  obtain ⟨trait, -, h⟩ := Outcome.bind_eq_ok_iff.1 h
  rw [← Outcome.pure_eq_ok_iff.1 h]
  exact ⟨rfl, SetterMethod.traitMethodsOn_items _ _ _ _ _ _ settersIs type⟩

theorem methodsOn_implementation {code : RecordCode} (generics clause : Option Node)
    (items : List Node) :
    Node.methodsOn code.typeName (.implementation [] generics false none code.type clause items) =
      items.filterMap Node.routine? := by
  rw [Node.methodsOn, RecordCode.type, names?_applyTo]
  exact if_pos rfl

/-- The methods that edit one field. -/
theorem routines_of_simpleSetters {code : RecordCode} {row : FieldCode × String}
    {items : List Node} (markFree : '#' ∉ (withoutRawMark row.2).toList)
    (h : simpleSetters code row.1 row.2 = .ok items) :
    items.filterMap Node.routine? =
      [code.editRoutine .direct row, code.editRoutine .asynchronous row] := by
  obtain ⟨asyncName, asyncNameOk, h⟩ := Outcome.bind_eq_ok_iff.1 h
  have asyncNameIs := legal_eq_ok asyncNameOk
  have plain : withoutRawMark asyncName = asyncName := by
    apply withoutRawMark_of_not_mem
    rw [asyncNameIs, String.toList_append, List.mem_append, not_or]
    exact ⟨markFree, by decide⟩
  rw [← Outcome.pure_eq_ok_iff.1 h]
  have direct : withoutRawMark row.2 = withoutRawMark row.2 ++ Flavor.direct.editSuffix :=
    String.append_empty.symm
  have asynchronous : withoutRawMark asyncName =
      withoutRawMark row.2 ++ Flavor.asynchronous.editSuffix := plain.trans asyncNameIs
  simp only [RecordCode.editRoutine, ← direct, ← asynchronous]
  rfl

theorem methodsOn_simple {code : RecordCode}
    (markFree : ∀ name ∈ code.setterNames, '#' ∉ (withoutRawMark name).toList)
    {simple : List (List Node)}
    (h : code.rows.mapM (fun row => simpleSetters code row.1 row.2) = .ok simple) :
    Node.methodsOn code.typeName (.methodsOf code.parameters.declared code.type
      (constructor code :: simple.flatten)) = code.newRoutine :: code.editRoutines := by
  have edits : simple.flatten.filterMap Node.routine? = code.editRoutines := by
    rw [List.filterMap_flatten, RecordCode.editRoutines, List.flatMap_def]
    refine congrArg List.flatten (Outcome.map_eq_of_mapM_of_mem ?_ h).symm
    intro row member items ok
    exact (routines_of_simpleSetters (markFree _ (List.of_mem_zip member).2) ok).symm
  have new : (constructor code).routine? = some code.newRoutine := rfl
  rw [Node.methodsOf, methodsOn_implementation, List.filterMap_cons_some new, edits]

theorem methodsOn_transactional (code : RecordCode) :
    Node.methodsOn code.typeName (.methodsOf code.parameters.declaredOwned code.type
      (transactional code (code.setters .direct) (code.setters .asynchronous))) =
      code.transactionRoutines := by
  rw [Node.methodsOf, methodsOn_implementation]
  rfl

theorem names?_setters {code : RecordCode} (markFree : '#' ∉ code.typeName.toList)
    (flavor : Flavor) :
    (code.setters flavor).names? = some [settersName code.typeName flavor] := by
  rw [RecordCode.setters, names?_applyTo, withoutRawMark_settersName markFree]

/-- The file of a record declares its struct, the aliases for its setters and the methods of
both. -/
theorem emits_of_file {record : Record} {around : Surroundings} {file : File}
    (h : Lens.file record around = .ok file) :
    ∃ code, RecordCode.ofRecord record = .ok code ∧ Emits code file := by
  obtain ⟨code, imports, simple, ops, asyncOps, codeOk, areUses, simpleOk, opsOk, asyncOpsOk,
    itemsAre⟩ := items_of_file h
  have reads := reads_of_ofRecord codeOk
  have markFree : '#' ∉ code.typeName.toList := markFree_of_identifier reads.name
  have setterMarkFree : ∀ name ∈ code.setterNames, '#' ∉ (withoutRawMark name).toList := by
    intro name member
    obtain ⟨field, -, ok⟩ := Outcome.mem_of_mapM reads.setterNames member
    exact markFree_of_identifier ok
  have ofOps := methods_of_setterOps opsOk (names?_setters markFree _)
  have ofAsyncOps := methods_of_setterOps asyncOpsOk (names?_setters markFree _)
  have noMethods (type : String) : imports.flatMap (Node.methodsOn type) = [] := by
    rw [List.flatMap_eq_nil_iff]
    exact fun node member => (Node.methodsOn_of_isUse (areUses node member) type).1
  have noTraitMethods (type : String) : imports.flatMap (Node.traitMethodsOn type) = [] := by
    rw [List.flatMap_eq_nil_iff]
    exact fun node member => (Node.methodsOn_of_isUse (areUses node member) type).2
  have noStruct : imports.findSome? Node.struct? = none := by
    rw [List.findSome?_eq_none_iff]
    exact fun node member => Node.struct?_of_isUse (areUses node member)
  have noAlias : imports.filterMap Node.alias? = [] := by
    rw [List.filterMap_eq_nil_iff]
    exact fun node member => (Node.declares_of_isUse (areUses node member)).2
  have aliases (doc name : String) (generics : Option Node) (type : Node) (other : String) :
      (typeAlias doc name generics type).methodsOn other = [] ∧
        (typeAlias doc name generics type).traitMethodsOn other = [] := ⟨rfl, rfl⟩
  have ofStruct : (struct record code).methodsOn code.typeName = [] :=
    Node.methodsOn_behind _ rfl
  refine ⟨code, codeOk, ?_, fun flavor => ?_, ?_, fun flavor => ?_⟩
  · rw [File.struct?, itemsAre, List.findSome?_append, noStruct, Option.none_or,
      RecordCode.items, List.findSome?_append, List.findSome?_cons, struct?_struct]
    rfl
  · rw [File.alias?, itemsAre, List.filterMap_append, noAlias, List.nil_append]
    exact lookup_aliases record markFree simple ops asyncOps flavor
  · rw [File.methodsOn, itemsAre, List.flatMap_append, noMethods, List.nil_append]
    simp only [RecordCode.items, List.flatMap_append, List.flatMap_cons, List.flatMap_nil, ofStruct,
      aliases, methodsOn_simple setterMarkFree simpleOk, methodsOn_transactional, ofOps, ofAsyncOps,
      List.nil_append, List.append_nil]
    rfl
  · have ofStructTrait : (struct record code).traitMethodsOn
        (settersName code.typeName flavor) = [] := Node.traitMethodsOn_behind _ rfl
    have own (generics : Option Node) (type : Node) (items : List Node) :
        (Node.methodsOf generics type items).traitMethodsOn
          (settersName code.typeName flavor) = [] := rfl
    rw [File.traitMethodsOn, itemsAre, List.flatMap_append, noTraitMethods, List.nil_append]
    simp only [RecordCode.items, List.flatMap_append, List.flatMap_cons, List.flatMap_nil,
      ofStructTrait, aliases, own, ofOps, ofAsyncOps, List.nil_append]
    cases flavor with
    | direct =>
      have other : settersName code.typeName .asynchronous ≠ settersName code.typeName .direct :=
        (settersName_injective _).ne (by decide)
      rw [if_pos rfl, if_neg other, List.append_nil]
    | asynchronous =>
      have other : settersName code.typeName .direct ≠ settersName code.typeName .asynchronous :=
        (settersName_injective _).ne (by decide)
      rw [if_neg other, if_pos rfl, List.nil_append]

end Lens

end Slotwise.Optics
