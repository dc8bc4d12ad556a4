import Slotwise.Check.Basic
import Slotwise.Proofs.Imports
import Slotwise.Proofs.SetterOps
/-!
# The items of a prism

What the file of a variant set declares: its enumeration, the aliases for its setters, and the
methods of both (`emits_of_file`). A method is known by its name, so there has to be exactly one of
that name (`only?`).
-/

namespace Slotwise.Code

open Naming

/-! ## Methods by name -/

/-- The routine of a name, if there is exactly one. -/
def only? (routines : List Routine) (name : String) : Option Routine :=
  match routines.filter (·.name == name) with
  | [routine] => some routine
  | _ => none

theorem only?_eq_some_iff {routines : List Routine} {name : String} {routine : Routine} :
    only? routines name = some routine ↔ routines.filter (·.name == name) = [routine] := by
  unfold only?
  split
  · next only filtered => simp [filtered]
  · next several =>
    constructor
    · intro h
      cases h
    · intro h
      exact absurd h (several routine)

/-- The only routine of a name is each routine of that name. -/
theorem eq_of_only? {routines : List Routine} {name : String} {routine other : Routine}
    (h : only? routines name = some routine) (member : other ∈ routines)
    (named : other.name = name) : other = routine := by
  have inside : other ∈ routines.filter (·.name == name) := by
    rw [List.mem_filter]
    exact ⟨member, beq_iff_eq.2 named⟩
  rw [only?_eq_some_iff.1 h] at inside
  exact List.mem_singleton.1 inside

/-- Names that occur once lead to their routines. -/
theorem only?_of_nodup {routines : List Routine} (once : (routines.map (·.name)).Nodup)
    {routine : Routine} (member : routine ∈ routines) :
    only? routines routine.name = some routine :=
  only?_eq_some_iff.2 (filter_eq_singleton once member)

/-- Names that all lead to one routine occur once. -/
theorem nodup_of_only? {routines : List Routine}
    (only : ∀ routine ∈ routines, (only? routines routine.name).isSome) :
    (routines.map (·.name)).Nodup := by
  rw [List.nodup_iff_count_eq_one]
  intro name member
  obtain ⟨routine, inside, rfl⟩ := List.mem_map.1 member
  obtain ⟨found, foundIs⟩ := Option.isSome_iff_exists.1 (only routine inside)
  rw [List.count, List.countP_map, List.countP_eq_length_filter]
  have single := only?_eq_some_iff.1 foundIs
  simp only [Function.comp_def]
  rw [single]
  rfl

/-- Routines under other names do not matter. -/
theorem only?_append_of_notMem {others routines : List Routine} {name : String}
    (absent : name ∉ others.map (·.name)) : only? (others ++ routines) name = only? routines name := by
  have none : others.filter (·.name == name) = [] := by
    rw [List.filter_eq_nil_iff]
    intro other member same
    exact absent (List.mem_map.2 ⟨other, member, beq_iff_eq.1 same⟩)
  rw [only?, List.filter_append, none, List.nil_append, only?]

/-- The methods that an item gives to `type` for a trait. -/
def Node.traitMethodsOn (type : String) : Node → List Routine
  | implementation _ _ _ (some _) subject _ items =>
    if subject.names? = some [type] then items.filterMap routine? else []
  | _ => []

/-- The methods that a file gives to `type` for traits. -/
def File.traitMethodsOn (file : File) (type : String) : List Routine :=
  file.items.flatMap (Node.traitMethodsOn type)

/-! ## What imports do not declare -/

theorem Node.methodsOn_of_isUse {node : Node} (h : node.isUse = true) (type : String) :
    node.methodsOn type = [] ∧ node.traitMethodsOn type = [] := by
  cases node with
  | implementation => cases h
  | _ => exact ⟨rfl, rfl⟩

theorem Node.declares_of_isUse {node : Node} (h : node.isUse = true) :
    node.enumeration? = none ∧ node.alias? = none := by
  fun_induction isUse node with
  | case1 _ item ih => exact ih h
  | case2 _ item ih => exact ih h
  | case3 => exact ⟨rfl, rfl⟩
  | case4 => cases h

/-! ## Items behind attributes -/

theorem Node.methodsOn_behind (attributes : List Node) {node : Node} {type : String}
    (h : node.methodsOn type = []) : (behind attributes node).methodsOn type = [] := by
  unfold behind
  split
  · exact h
  · rfl

theorem Node.traitMethodsOn_behind (attributes : List Node) {node : Node} {type : String}
    (h : node.traitMethodsOn type = []) : (behind attributes node).traitMethodsOn type = [] := by
  unfold behind
  split
  · exact h
  · rfl

@[simp] theorem Node.enumeration?_behind (attributes : List Node) (node : Node) :
    (behind attributes node).enumeration? = node.enumeration? := by
  unfold behind
  split <;> simp [enumeration?]

@[simp] theorem Node.alias?_behind (attributes : List Node) (node : Node) :
    (behind attributes node).alias? = node.alias? := by
  unfold behind
  split <;> simp [alias?]

@[simp] theorem Node.case?_behind (attributes : List Node) (node : Node) :
    (behind attributes node).case? = node.case? := by
  unfold behind
  split <;> simp [case?]

@[simp] theorem Node.part?_behind (attributes : List Node) (node : Node) :
    (behind attributes node).part? = node.part? := by
  unfold behind
  split <;> simp [part?]

end Slotwise.Code

namespace Slotwise.Optics

open Code Naming

/-! ## The items -/

/-- The name of the type of setters. -/
def settersName (type : String) : Flavor → String
  | .direct => type ++ "Setters"
  | .asynchronous => type ++ "AsyncSetters"

/-- The name of the method that applies a transaction. -/
def Flavor.setName : Flavor → String
  | direct => "set"
  | asynchronous => "set_async"

/-- The name of the function that makes a transaction. -/
def Flavor.transactionName : Flavor → String
  | direct => "transaction"
  | asynchronous => "transaction_async"

/-- The routine that a method of setters is read as. -/
def SetterMethod.routine (method : SetterMethod) : Routine :=
  ⟨withoutRawMark method.name, false, [.self, .input "f" method.edit], [method.body]⟩

theorem SetterMethod.traitMethodsOn_items (doc trait : String)
    (declared declaredOwned : Option Node) (traitType : Node) {setters : Node}
    (methods : List SetterMethod) {name : String} (settersIs : setters.names? = some [name])
    (type : String) :
    (items doc trait declared declaredOwned traitType setters methods).flatMap
      (Node.traitMethodsOn type) = if name = type then methods.map routine else [] := by
  have routines : (methods.map fun m => m.item (some (.block [] [m.body]))).filterMap
      Node.routine? = methods.map routine := filterMap_map_some (fun _ => by rfl) methods
  have first : ([] : List Routine) ++ ((if setters.names? = some [type] then
      (methods.map fun m => m.item (some (.block [] [m.body]))).filterMap Node.routine? else []) ++
      []) = if name = type then methods.map routine else [] := by
    rw [settersIs, routines]
    simp
  exact first

namespace Prism

/-- The name of the type of a variant set. -/
def SetCode.typeName (code : SetCode) : String :=
  withoutRawMark code.name

/-- The type of the setters of a variant set. -/
def SetCode.setters (code : SetCode) (flavor : Flavor) : Node :=
  code.parameters.applyTo (settersName code.typeName flavor)

/-- The method that applies a transaction. -/
def SetCode.setRoutine (code : SetCode) (flavor : Flavor) : Routine :=
  ⟨flavor.setName, flavor == .asynchronous,
    [.self, .input "transaction" (transactionType (code.setters flavor))], [setBody code flavor]⟩

/-- The function that makes a transaction. -/
def SetCode.transactionRoutine (code : SetCode) (flavor : Flavor) : Routine :=
  ⟨flavor.transactionName, false,
    [.input "block" (.someFunction "FnOnce" (code.setters flavor) (code.setters flavor))],
    [transactionBody code flavor]⟩

/-- The routines around transactions. -/
def SetCode.transactionRoutines (code : SetCode) : List Routine :=
  [.direct, .asynchronous].flatMap fun flavor =>
    [code.setRoutine flavor, code.transactionRoutine flavor]

/-- The methods of the setters of a variant set: those of shared fields, and those of the fields of
each variant. -/
structure ReadsMethods (set : VariantSet) (code : SetCode) (flavor : Flavor)
    (shared : List SetterMethod) (variants : List (List SetterMethod)) : Prop where
  /-- One method for each shared field. -/
  shared : code.shared.mapM (sharedMethod set code flavor) = .ok shared
  /-- One method for each field of each variant. -/
  variants : code.variants.zipIdx.mapM (fun (variant, v) =>
    variant.fields.zipIdx.mapM fun (field, f) =>
      variantMethod set code flavor variant (v + 1) field (f + 1)) = .ok variants

/-- What the file of a variant set declares. -/
structure Emits (set : VariantSet) (code : SetCode) (file : File) : Prop where
  /-- The enumeration. -/
  enumeration : file.enumeration? =
    some ⟨code.typeName, code.variants.map VariantCode.case⟩
  /-- The aliases for the setters. -/
  settersAlias : ∀ flavor, file.alias? (settersName code.typeName flavor) =
    some (settersShape code flavor)
  /-- The methods of the type. -/
  methods : ∃ others, file.methodsOn code.typeName = others ++ code.transactionRoutines ∧
    others.map (·.name) = code.base.map (fun field => withoutRawMark field.name) ++
      code.variants.map fun variant => withoutRawMark variant.constructor
  /-- The methods of the setters. -/
  setters : ∀ flavor, ∃ shared variants, ReadsMethods set code flavor shared variants ∧
    file.traitMethodsOn (settersName code.typeName flavor) =
      (shared ++ variants.flatten).map SetterMethod.routine

/-- The items of the file of a variant set behind the imports. -/
def SetCode.items (code : SetCode) (set : VariantSet) (ops asyncOps : List Node) : List Node :=
  [enumerationItem set code,
    typeAlias s!" Setters of one variant of [`{code.owner}`]; variant i is summand i."
      (settersName code.typeName .direct) code.parameters.declared (settersShape code .direct),
    typeAlias s!" Asynchronous setters of one variant of [`{code.owner}`]."
      (settersName code.typeName .asynchronous) code.parameters.declared
      (settersShape code .asynchronous)] ++
  (baseGetters code ++
    ([.methodsOf code.parameters.declared code.type (code.variants.map constructor),
      .methodsOf code.parameters.declaredOwned code.type
        (transactional code (code.setters .direct) (code.setters .asynchronous))] ++
      (ops ++ asyncOps)))

/-- The file of a variant set from its first import to its last item. -/
theorem parts_of_file {set : VariantSet} {around : Surroundings} {file : File}
    (h : Prism.file set around = .ok file) :
    ∃ code, ∃ paths : List (List String), ∃ own ops asyncOps, SetCode.ofSet set = .ok code ∧
      (∃ types, typeImports code.owner types = .ok own) ∧
      setterOps set code .direct (code.setters .direct) = .ok ops ∧
      setterOps set code .asynchronous (code.setters .asynchronous) = .ok asyncOps ∧
      file.items = serializationImport set.serializable ++ paths.map Node.importing ++ own ++
        code.items set ops asyncOps := by
  obtain ⟨code, setCode, h⟩ := Outcome.bind_eq_ok_iff.1 h
  obtain ⟨setters, settersOk, h⟩ := Outcome.bind_eq_ok_iff.1 h
  obtain ⟨asyncSetters, asyncSettersOk, h⟩ := Outcome.bind_eq_ok_iff.1 h
  obtain ⟨support, supportOk, h⟩ := Outcome.ite_bind_eq_ok_iff.1 h
  obtain ⟨products, productsOk, h⟩ := Outcome.bind_eq_ok_iff.1 h
  obtain ⟨sumPath, sumOk, h⟩ := Outcome.bind_eq_ok_iff.1 h
  obtain ⟨own, ownOk, h⟩ := Outcome.bind_eq_ok_iff.1 h
  obtain ⟨ops, opsOk, h⟩ := Outcome.bind_eq_ok_iff.1 h
  obtain ⟨asyncOps, asyncOpsOk, h⟩ := Outcome.bind_eq_ok_iff.1 h
  have settersIs : setters = settersName code.typeName .direct := legal_eq_ok settersOk
  have asyncSettersIs : asyncSetters = settersName code.typeName .asynchronous :=
    legal_eq_ok asyncSettersOk
  subst settersIs asyncSettersIs
  obtain ⟨supportPaths, rfl⟩ :
      ∃ paths : List (List String), support = paths.map Node.importing := by
    split at supportOk
    · obtain ⟨paths, -, rfl⟩ := supportTargets_of_supportImports supportOk
      exact ⟨paths, rfl⟩
    · exact ⟨[], (Outcome.pure_eq_ok_iff.1 supportOk).symm⟩
  obtain ⟨productPaths, -, rfl⟩ := productTargets_of_productImports productsOk
  rw [← Outcome.pure_eq_ok_iff.1 h]
  refine ⟨code, supportPaths ++ productPaths ++ [sumPath], own, ops, asyncOps, setCode, ⟨_, ownOk⟩,
    opsOk, asyncOpsOk, ?_⟩
  simp only [SetCode.items, List.map_append, List.append_assoc]
  rfl

theorem items_of_file {set : VariantSet} {around : Surroundings} {file : File}
    (h : Prism.file set around = .ok file) :
    ∃ code imports ops asyncOps, SetCode.ofSet set = .ok code ∧
      (∀ node ∈ imports, node.isUse = true) ∧
      setterOps set code .direct (code.setters .direct) = .ok ops ∧
      setterOps set code .asynchronous (code.setters .asynchronous) = .ok asyncOps ∧
      file.items = imports ++ code.items set ops asyncOps := by
  obtain ⟨code, paths, own, ops, asyncOps, setCode, ⟨_, ownOk⟩, opsOk, asyncOpsOk, itemsAre⟩ :=
    parts_of_file h
  refine ⟨code, _, ops, asyncOps, setCode, ?_, opsOk, asyncOpsOk, itemsAre⟩
  rw [← List.filter_eq_self]
  simp only [List.filter_append, filter_isUse_serializationImport, Node.filter_isUse_importing,
    filter_isUse_typeImports ownOk]

/-! ## What the items declare -/

/-- A name is legal when it was read as an identifier, so it bears no raw mark within. -/
theorem markFree_of_identifier {owner expected text name : String}
    (h : ModelText.identifier owner expected text = .ok name) :
    '#' ∉ (withoutRawMark name).toList := by
  unfold ModelText.identifier ModelText.orInvalid at h
  split at h
  · cases h
  · split at h
    · next read =>
      cases h
      exact mark_not_mem_withoutRawMark (Node.isLegal_of_identifier? read).1
    · cases h

theorem names?_applyTo (parameters : TypeParameters) (name : String) :
    (parameters.applyTo name).names? = some [withoutRawMark name] := by
  unfold TypeParameters.applyTo
  split <;> rfl

theorem withoutRawMark_settersName {type : String} (markFree : '#' ∉ type.toList)
    (flavor : Flavor) :
    withoutRawMark (settersName type flavor) = settersName type flavor := by
  apply withoutRawMark_of_not_mem
  cases flavor <;> rw [settersName, String.toList_append, List.mem_append, not_or] <;>
    exact ⟨markFree, by decide⟩

theorem settersName_injective (type : String) : Function.Injective (settersName type) := by
  intro first second same
  have texts := congrArg String.toList same
  cases first <;> cases second <;> first | rfl | skip
  all_goals
    rw [settersName, settersName, String.toList_append, String.toList_append,
      List.append_cancel_left_eq] at texts
    exact absurd texts (by decide)

theorem enumeration?_enumerationItem (set : VariantSet) (code : SetCode) :
    (enumerationItem set code).enumeration? =
      some ⟨code.typeName, code.variants.map VariantCode.case⟩ := by
  have part (field : FieldCode) :
      (Node.behind field.attributes (.typed (.named field.name) field.type)).part? =
        some (withoutRawMark field.name, field.type) := by
    rw [Node.part?_behind]
    rfl
  have case (variant : VariantCode) :
      (Node.behind variant.docs (.fieldVariant variant.name
        (variant.fields.map fun field =>
          .behind field.attributes (.typed (.named field.name) field.type)) false none)).case? =
        some variant.case := by
    rw [Node.case?_behind, Node.case?, filterMap_map_some part]
    rfl
  rw [enumerationItem, Node.enumeration?_behind, Node.isPublic, Node.enumeration?,
    Node.enumeration?, filterMap_map_some case]
  rfl

theorem lookup_aliases {code : SetCode} (set : VariantSet) (markFree : '#' ∉ code.typeName.toList)
    (ops asyncOps : List Node) (flavor : Flavor) :
    ((code.items set ops asyncOps).filterMap Node.alias?).lookup
      (settersName code.typeName flavor) = some (settersShape code flavor) := by
  have none : (enumerationItem set code).alias? = none := by
    rw [enumerationItem, Node.alias?_behind]
    rfl
  have plain := withoutRawMark_settersName markFree
  have aliasIs (doc : String) (other : Flavor) (generics : Option Node) :
      (typeAlias doc (settersName code.typeName other) generics (settersShape code other)).alias? =
        some (settersName code.typeName other, settersShape code other) := by
    rw [← plain other]
    exact congrArg (fun name => some (name, settersShape code other)) (congrArg _ (plain other))
  rw [SetCode.items, List.filterMap_append, List.filterMap_cons_none none,
    List.filterMap_cons_some (aliasIs _ .direct _),
    List.filterMap_cons_some (aliasIs _ .asynchronous _)]
  cases flavor with
  | direct => exact List.lookup_cons_self
  | asynchronous =>
    have other : settersName code.typeName .asynchronous ≠ settersName code.typeName .direct :=
      (settersName_injective _).ne (by decide)
    rw [List.cons_append, List.lookup_cons, beq_false_of_ne other]
    exact List.lookup_cons_self

theorem methods_of_setterOps {set : VariantSet} {code : SetCode} {flavor : Flavor} {setters : Node}
    {ops : List Node} (h : setterOps set code flavor setters = .ok ops) {name : String}
    (settersIs : setters.names? = some [name]) :
    ∃ shared variants, ReadsMethods set code flavor shared variants ∧
      (∀ type, ops.flatMap (Node.methodsOn type) = []) ∧
      ∀ type, ops.flatMap (Node.traitMethodsOn type) =
        if name = type then (shared ++ variants.flatten).map SetterMethod.routine else [] := by
  obtain ⟨shared, sharedOk, h⟩ := Outcome.bind_eq_ok_iff.1 h
  obtain ⟨variants, variantsOk, h⟩ := Outcome.bind_eq_ok_iff.1 h
  obtain ⟨trait, -, h⟩ := Outcome.bind_eq_ok_iff.1 h
  refine ⟨shared, variants, ⟨sharedOk, variantsOk⟩, fun type => ?_, fun type => ?_⟩ <;>
    rw [← Outcome.pure_eq_ok_iff.1 h]
  · rfl
  · exact SetterMethod.traitMethodsOn_items _ _ _ _ _ _ settersIs type

theorem methodsOn_implementation {code : SetCode} (generics clause : Option Node)
    (items : List Node) :
    Node.methodsOn code.typeName (.implementation [] generics false none code.type clause items) =
      items.filterMap Node.routine? := by
  rw [Node.methodsOn, SetCode.type, names?_applyTo]
  exact if_pos rfl

theorem names_baseGetters (code : SetCode) :
    ((baseGetters code).flatMap (Node.methodsOn code.typeName)).map (·.name) =
      code.base.map fun field => withoutRawMark field.name := by
  unfold baseGetters
  split
  · next empty =>
    rw [List.isEmpty_iff.1 empty]
    rfl
  · rw [List.flatMap_singleton, methodsOn_implementation, filterMap_map_some (fun _ => by rfl),
      List.map_map]
    have names : code.base.map (fun field => withoutRawMark field.name) =
        code.base.zipIdx.map ((fun field => withoutRawMark field.name) ∘ Prod.fst) := by
      rw [← List.map_map, List.zipIdx_map_fst]
    exact names.symm

theorem names_constructors (code : SetCode) :
    (Node.methodsOn code.typeName (.methodsOf code.parameters.declared code.type
      (code.variants.map constructor))).map (·.name) =
      code.variants.map fun variant => withoutRawMark variant.constructor := by
  rw [Node.methodsOf, methodsOn_implementation, filterMap_map_some (fun _ => by rfl), List.map_map]
  rfl

theorem methodsOn_transactional (code : SetCode) :
    Node.methodsOn code.typeName (.methodsOf code.parameters.declaredOwned code.type
      (transactional code (code.setters .direct) (code.setters .asynchronous))) =
      code.transactionRoutines := by
  rw [Node.methodsOf, methodsOn_implementation]
  rfl

theorem traitMethodsOn_baseGetters (code : SetCode) (type : String) :
    (baseGetters code).flatMap (Node.traitMethodsOn type) = [] := by
  unfold baseGetters
  split <;> rfl

section Ops

variable {set : VariantSet} {code : SetCode} {ops asyncOps : List Node}
  (markFree : '#' ∉ code.typeName.toList)
  (opsOk : setterOps set code .direct (code.setters .direct) = .ok ops)
  (asyncOpsOk : setterOps set code .asynchronous (code.setters .asynchronous) = .ok asyncOps)

include markFree

theorem names?_setters (flavor : Flavor) :
    (code.setters flavor).names? = some [settersName code.typeName flavor] := by
  rw [SetCode.setters, names?_applyTo, withoutRawMark_settersName markFree]

include opsOk asyncOpsOk

theorem methodsOn_items :
    ∃ others, (code.items set ops asyncOps).flatMap (Node.methodsOn code.typeName) =
        others ++ code.transactionRoutines ∧
      others.map (·.name) = code.base.map (fun field => withoutRawMark field.name) ++
        code.variants.map fun variant => withoutRawMark variant.constructor := by
  obtain ⟨_, _, -, noMethods, -⟩ := methods_of_setterOps opsOk (names?_setters markFree _)
  obtain ⟨_, _, -, noAsyncMethods, -⟩ := methods_of_setterOps asyncOpsOk (names?_setters markFree _)
  have enumeration : (enumerationItem set code).methodsOn code.typeName = [] :=
    Node.methodsOn_behind _ rfl
  have aliases (doc name : String) (generics : Option Node) (type : Node) :
      (typeAlias doc name generics type).methodsOn code.typeName = [] := rfl
  refine ⟨(baseGetters code).flatMap (Node.methodsOn code.typeName) ++
    Node.methodsOn code.typeName (.methodsOf code.parameters.declared code.type
      (code.variants.map constructor)), ?_, ?_⟩
  · simp only [SetCode.items, List.flatMap_append, List.flatMap_cons, List.flatMap_nil,
      noMethods, noAsyncMethods, methodsOn_transactional, enumeration, aliases,
      List.nil_append, List.append_nil, List.append_assoc]
  · rw [List.map_append, names_baseGetters, names_constructors]

theorem traitMethodsOn_items (flavor : Flavor) :
    ∃ shared variants, ReadsMethods set code flavor shared variants ∧
      (code.items set ops asyncOps).flatMap
        (Node.traitMethodsOn (settersName code.typeName flavor)) =
        (shared ++ variants.flatten).map SetterMethod.routine := by
  obtain ⟨shared, variants, reads, -, methods⟩ :=
    methods_of_setterOps opsOk (names?_setters markFree _)
  obtain ⟨asyncShared, asyncVariants, asyncReads, -, asyncMethods⟩ :=
    methods_of_setterOps asyncOpsOk (names?_setters markFree _)
  have enumeration : (enumerationItem set code).traitMethodsOn
      (settersName code.typeName flavor) = [] := Node.traitMethodsOn_behind _ rfl
  have aliases (doc name : String) (generics : Option Node) (type : Node) :
      (typeAlias doc name generics type).traitMethodsOn
        (settersName code.typeName flavor) = [] := rfl
  have own (generics : Option Node) (type : Node) (items : List Node) :
      (Node.methodsOf generics type items).traitMethodsOn
        (settersName code.typeName flavor) = [] := rfl
  simp only [SetCode.items, List.flatMap_append, List.flatMap_cons, List.flatMap_nil,
    traitMethodsOn_baseGetters, enumeration, aliases, own, methods, asyncMethods, List.nil_append]
  cases flavor with
  | direct =>
    have other : settersName code.typeName .asynchronous ≠ settersName code.typeName .direct :=
      (settersName_injective _).ne (by decide)
    refine ⟨shared, variants, reads, ?_⟩
    rw [if_pos rfl, if_neg other, List.append_nil]
  | asynchronous =>
    have other : settersName code.typeName .direct ≠ settersName code.typeName .asynchronous :=
      (settersName_injective _).ne (by decide)
    refine ⟨asyncShared, asyncVariants, asyncReads, ?_⟩
    rw [if_neg other, if_pos rfl, List.nil_append]

end Ops

/-- The file of a variant set declares its enumeration, the aliases for its setters and the methods
of both. -/
theorem emits_of_file {set : VariantSet} {around : Surroundings} {file : File}
    (h : Prism.file set around = .ok file) :
    ∃ code, SetCode.ofSet set = .ok code ∧ Emits set code file := by
  obtain ⟨code, imports, ops, asyncOps, setCode, areUses, opsOk, asyncOpsOk, itemsAre⟩ :=
    items_of_file h
  have markFree : '#' ∉ code.typeName.toList :=
    markFree_of_identifier (reads_of_ofSet setCode).name
  have noMethods (type : String) : imports.flatMap (Node.methodsOn type) = [] := by
    rw [List.flatMap_eq_nil_iff]
    exact fun node member => (Node.methodsOn_of_isUse (areUses node member) type).1
  have noTraitMethods (type : String) : imports.flatMap (Node.traitMethodsOn type) = [] := by
    rw [List.flatMap_eq_nil_iff]
    exact fun node member => (Node.methodsOn_of_isUse (areUses node member) type).2
  have noEnumeration : imports.findSome? Node.enumeration? = none := by
    rw [List.findSome?_eq_none_iff]
    exact fun node member => (Node.declares_of_isUse (areUses node member)).1
  have noAlias : imports.filterMap Node.alias? = [] := by
    rw [List.filterMap_eq_nil_iff]
    exact fun node member => (Node.declares_of_isUse (areUses node member)).2
  refine ⟨code, setCode, ?_, ?_, ?_, ?_⟩
  · rw [File.enumeration?, itemsAre, List.findSome?_append, noEnumeration, Option.none_or]
    rw [SetCode.items, List.findSome?_append, List.findSome?_cons, enumeration?_enumerationItem]
    rfl
  · intro flavor
    rw [File.alias?, itemsAre, List.filterMap_append, noAlias, List.nil_append]
    exact lookup_aliases set markFree ops asyncOps flavor
  · rw [File.methodsOn, itemsAre, List.flatMap_append, noMethods, List.nil_append]
    exact methodsOn_items markFree opsOk asyncOpsOk
  · intro flavor
    rw [File.traitMethodsOn, itemsAre, List.flatMap_append, noTraitMethods, List.nil_append]
    exact traitMethodsOn_items markFree opsOk asyncOpsOk flavor

end Prism

end Slotwise.Optics
