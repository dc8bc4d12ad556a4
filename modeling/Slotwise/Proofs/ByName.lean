import Slotwise.Proofs.Propagation
/-!
# Serialization by name

Where the names of all declarations differ, a reference finds its declaration by name alone, and the
numbers of the declarations do not count. So what serialization spreads to is said without them
(`Reaches`), and declarations in another order are marked in the same way.

Main statement: declarations in another order spread to the same ones in another order
(`reordered_propagated`).
-/

namespace Slotwise

namespace Request

/-- The names of all declarations. -/
def names (request : Request) : List String :=
  request.records.map (·.name) ++ request.variantSets.map (·.name)

/-- The requests differ in nothing but the order of their declarations. -/
inductive Reordered (request : Request) : Request → Prop where
  /-- Records and variant sets are given in another order. -/
  | mk {records : List Record} {variantSets : List VariantSet}
    (perm : records.Perm request.records) (perm' : variantSets.Perm request.variantSets) :
    Reordered request { request with records, variantSets }

namespace Reordered

variable {request other : Request}

theorem output (reordered : Reordered request other) : other.output = request.output := by
  obtain ⟨-, -⟩ := reordered
  rfl

theorem keys (reordered : Reordered request other) : other.keys = request.keys := by
  obtain ⟨-, -⟩ := reordered
  rfl

theorem symm (reordered : Reordered request other) : Reordered other request := by
  obtain ⟨perm, perm'⟩ := reordered
  exact .mk perm.symm perm'.symm

theorem nodup_names (reordered : Reordered request other) (distinct : request.names.Nodup) :
    other.names.Nodup := by
  obtain ⟨perm, perm'⟩ := reordered
  exact ((perm.map _).append (perm'.map _)).nodup_iff.2 distinct

end Reordered

end Request

namespace Propagation

open Relation

/-! ## Declarations without numbers -/

/-- A declaration as others refer to it and as it refers to others. -/
structure Declaration where
  /-- The name of the declared type. -/
  name : String
  /-- The module that the type is generated in. -/
  modulePath : String
  /-- The fields; those of a variant set are its base fields and the fields of all its variants. -/
  fields : List Field
  /-- Whether it is marked for serialization. -/
  serializable : Bool

/-- A record as a declaration. -/
def Declaration.ofRecord (output : OutputOptions) (record : Record) : Declaration :=
  ⟨record.name, (Naming.opticsPlace .lenses record.location output).modulePath, record.fields,
    record.serializable⟩

/-- A variant set as a declaration. -/
def Declaration.ofSet (output : OutputOptions) (set : VariantSet) : Declaration :=
  ⟨set.name, (Naming.opticsPlace .prisms set.location output).modulePath,
    set.fields ++ set.variants.flatMap (·.fields), set.serializable⟩

/-- A field of a declaration has a type that names the other one, or depends on such a type. Transient
fields do not count, and a type variable names nothing itself. -/
def Declaration.Names (source target : Declaration) : Prop :=
  ∃ field ∈ source.fields, field.type.serialization ≠ .transient ∧
    ∃ type, Within field.type type ∧ type.generic ≠ .variable ∧
      target.name = type.baseName ∧ namesModule type.package target.modulePath = true

/-- The declarations of a request. -/
def declarations (request : Request) : List Declaration :=
  request.records.map (.ofRecord request.output) ++
    request.variantSets.map (.ofSet request.output)

/-- The declaration with a number. -/
def declaration? (request : Request) : Target → Option Declaration
  | .record i => request.records[i]?.map (.ofRecord request.output)
  | .variantSet i => request.variantSets[i]?.map (.ofSet request.output)

/-- Names lead to the declaration from one that is marked. -/
def Reaches (declarations : List Declaration) (target : Declaration) : Prop :=
  ∃ start ∈ declarations, start.serializable = true ∧
    ReflTransGen (fun a b => a ∈ declarations ∧ b ∈ declarations ∧ a.Names b) start target

/-- A declaration that is reached names this one. -/
def ReachesInside (declarations : List Declaration) (target : Declaration) : Prop :=
  ∃ source ∈ declarations, Reaches declarations source ∧ source.Names target

variable {request : Request}

theorem mem_declarations_iff {declaration : Declaration} :
    declaration ∈ declarations request ↔
      ∃ target, declaration? request target = some declaration := by
  simp only [declarations, List.mem_append, List.mem_map]
  constructor
  · rintro (⟨record, member, rfl⟩ | ⟨set, member, rfl⟩)
    · obtain ⟨i, found⟩ := List.mem_iff_getElem?.1 member
      exact ⟨.record i, by rw [declaration?, found]; rfl⟩
    · obtain ⟨i, found⟩ := List.mem_iff_getElem?.1 member
      exact ⟨.variantSet i, by rw [declaration?, found]; rfl⟩
  · rintro ⟨i | i, found⟩
    · obtain ⟨record, listed, rfl⟩ := Option.map_eq_some_iff.1 found
      exact .inl ⟨record, List.mem_of_getElem? listed, rfl⟩
    · obtain ⟨set, listed, rfl⟩ := Option.map_eq_some_iff.1 found
      exact .inr ⟨set, List.mem_of_getElem? listed, rfl⟩

theorem serializable_iff {target : Target} : Serializable request target ↔
    ∃ declaration, declaration? request target = some declaration ∧
      declaration.serializable = true := by
  cases target with
  | record i => simp [Serializable, declaration?, Declaration.ofRecord]
  | variantSet i => simp [Serializable, declaration?, Declaration.ofSet]

theorem fieldsOf_eq (request : Request) (target : Target) :
    fieldsOf request target = ((declaration? request target).map (·.fields)).getD [] := by
  cases target <;> rw [fieldsOf, declaration?, Option.map_map] <;> rfl

/-! ## References by name -/

theorem mem_entries_iff {entry : Entry} : entry ∈ entries request ↔
    ∃ declaration, declaration? request entry.target = some declaration ∧
      declaration.name = entry.name ∧ declaration.modulePath = entry.modulePath := by
  rcases entry with ⟨name, modulePath, i | i⟩ <;>
    simp [entries, declaration?, List.mem_zipIdx_iff_getElem?, Declaration.ofRecord,
      Declaration.ofSet]

theorem map_name_entries (request : Request) : (entries request).map (·.name) = request.names := by
  have each {α : Type} (xs : List α) (name : α → String) :
      xs.zipIdx.map (fun entry => name entry.1) = xs.map name := by
    calc xs.zipIdx.map (fun entry => name entry.1)
        = (xs.zipIdx.map Prod.fst).map name := by rw [List.map_map]; rfl
      _ = xs.map name := by rw [List.zipIdx_map_fst]
  rw [Request.names, ← each request.records, ← each request.variantSets, entries, List.map_append,
    List.map_map, List.map_map]
  rfl

/-- Where names differ, a type resolves to the declaration that it names. -/
theorem resolve?_eq_some_iff (distinct : request.names.Nodup) {type : TypeRef} {target : Target} :
    resolve? (entries request) type = some target ↔
      ∃ declaration, declaration? request target = some declaration ∧
        declaration.name = type.baseName ∧
        namesModule type.package declaration.modulePath = true := by
  rw [resolve?, Option.map_eq_some_iff]
  constructor
  · rintro ⟨entry, found, rfl⟩
    obtain ⟨declaration, declared, name, module⟩ :=
      mem_entries_iff.1 (List.mem_of_find?_eq_some found)
    have named := List.find?_some found
    rw [Bool.and_eq_true, beq_iff_eq] at named
    exact ⟨declaration, declared, name.trans named.1, module ▸ named.2⟩
  · rintro ⟨declaration, declared, name, module⟩
    have member : ⟨declaration.name, declaration.modulePath, target⟩ ∈ entries request :=
      mem_entries_iff.2 ⟨declaration, declared, rfl, rfl⟩
    have some_ : ((entries request).find? fun entry =>
        entry.name == type.baseName && namesModule type.package entry.modulePath).isSome = true :=
      List.find?_isSome.2 ⟨_, member, by simp [name, module]⟩
    obtain ⟨entry, found⟩ := Option.isSome_iff_exists.1 some_
    have named := List.find?_some found
    rw [Bool.and_eq_true, beq_iff_eq, ← name] at named
    -- entries of one name are the same, so the one that is found is that of the declaration
    have same := List.inj_on_of_nodup_map (map_name_entries request ▸ distinct)
      (List.mem_of_find?_eq_some found) member named.1
    exact ⟨entry, found, by rw [same]⟩

/-- Where names differ, references are those by name. -/
theorem refers_iff (distinct : request.names.Nodup) {source target : Target} :
    Refers request source target ↔
      ∃ a b, declaration? request source = some a ∧ declaration? request target = some b ∧
        a.Names b := by
  simp only [Refers, RefersThrough, resolve?_eq_some_iff distinct, fieldsOf_eq]
  cases declaration? request source with
  | none => simp
  | some a =>
    simp only [Option.map_some, Option.getD_some, Option.some.injEq, exists_and_left,
      exists_eq_left', Declaration.Names]
    grind

/-- Where names differ, what is reached is reached by name. -/
theorem reached_iff (distinct : request.names.Nodup) {target : Target} {declaration : Declaration}
    (declared : declaration? request target = some declaration) :
    Reached request target ↔ Reaches (declarations request) declaration := by
  constructor
  · rintro ⟨start, serializable, path⟩
    obtain ⟨first, found, marked⟩ := serializable_iff.1 serializable
    refine ⟨first, mem_declarations_iff.2 ⟨start, found⟩, marked, ?_⟩
    induction path generalizing declaration with
    | refl =>
      cases found.symm.trans declared
      exact .refl
    | tail _ refers ih =>
      obtain ⟨a, b, source, found', names⟩ := (refers_iff distinct).1 refers
      cases found'.symm.trans declared
      exact (ih source).tail ⟨mem_declarations_iff.2 ⟨_, source⟩, mem_declarations_iff.2 ⟨_, found'⟩,
        names⟩
  · rintro ⟨first, member, marked, path⟩
    induction path generalizing target with
    | refl => exact ⟨target, serializable_iff.2 ⟨first, declared, marked⟩, .refl⟩
    | tail _ step ih =>
      obtain ⟨inside, -, names⟩ := step
      obtain ⟨source, found⟩ := mem_declarations_iff.1 inside
      obtain ⟨start, serializable, path⟩ := ih found
      exact ⟨start, serializable, path.tail ((refers_iff distinct).2 ⟨_, _, found, declared, names⟩)⟩

/-! ## What is spread, by name -/

open Classical in
/-- The record as it is when serialization was spread. -/
noncomputable def spreadRecord (output : OutputOptions) (among : List Declaration)
    (record : Record) : Record :=
  { record with serializable := decide (Reaches among (.ofRecord output record)) }

open Classical in
/-- The variant set as it is when serialization was spread. -/
noncomputable def spreadSet (output : OutputOptions) (among : List Declaration)
    (set : VariantSet) : VariantSet :=
  { set with
    serializable := decide (Reaches among (.ofSet output set))
    serialization :=
      if ReachesInside among (.ofSet output set) then .polymorphic else set.serialization }

theorem length_propagated (request : Request) :
    request.propagated.records.length = request.records.length ∧
      request.propagated.variantSets.length = request.variantSets.length := by
  obtain ⟨targets, equation, -⟩ := spreadsTo_spreadTimes
    (request.records.length + request.variantSets.length) request
  rw [Request.propagated, equation]
  exact length_foldl_mark targets request

theorem records_propagated (distinct : request.names.Nodup) :
    request.propagated.records =
      request.records.map (spreadRecord request.output (declarations request)) := by
  classical
  have spreads : SpreadsTo request request.propagated := spreadsTo_spreadTimes _ request
  refine List.ext_getElem? fun i => ?_
  rw [List.getElem?_map]
  cases found : request.records[i]? with
  | none =>
    rw [Option.map_none, List.getElem?_eq_none_iff, (length_propagated request).1]
    exact List.getElem?_eq_none_iff.1 found
  | some record =>
    obtain ⟨marked, result, marked_iff⟩ :=
      spreads.records_of_settled (spread_propagated request) found
    have declared : declaration? request (.record i) = some (.ofRecord request.output record) := by
      rw [declaration?, found]
      rfl
    rw [reached_iff distinct declared] at marked_iff
    have same :
        marked = (spreadRecord request.output (declarations request) record).serializable :=
      Bool.eq_iff_iff.2 (marked_iff.trans decide_eq_true_iff.symm)
    rw [result, same]
    rfl

/-- What refers to a declaration once everything is marked are those that are reached. -/
theorem reachesInside_iff (distinct : request.names.Nodup) {target : Target}
    {declaration : Declaration} (declared : declaration? request target = some declaration) :
    (∃ source, Serializable request.propagated source ∧ Refers request source target) ↔
      ReachesInside (declarations request) declaration := by
  have spreads : SpreadsTo request request.propagated := spreadsTo_spreadTimes _ request
  simp only [spreads.serializable_iff (spread_propagated request)]
  constructor
  · rintro ⟨source, reached, refers⟩
    obtain ⟨a, b, found, found', names⟩ := (refers_iff distinct).1 refers
    cases found'.symm.trans declared
    exact ⟨a, mem_declarations_iff.2 ⟨source, found⟩, (reached_iff distinct found).1 reached, names⟩
  · rintro ⟨a, member, reaches, names⟩
    obtain ⟨source, found⟩ := mem_declarations_iff.1 member
    exact ⟨source, (reached_iff distinct found).2 reaches,
      (refers_iff distinct).2 ⟨a, _, found, declared, names⟩⟩

theorem variantSets_propagated (distinct : request.names.Nodup) :
    request.propagated.variantSets =
      request.variantSets.map (spreadSet request.output (declarations request)) := by
  classical
  have spreads : SpreadsTo request request.propagated := spreadsTo_spreadTimes _ request
  refine List.ext_getElem? fun i => ?_
  rw [List.getElem?_map]
  cases found : request.variantSets[i]? with
  | none =>
    rw [Option.map_none, List.getElem?_eq_none_iff, (length_propagated request).2]
    exact List.getElem?_eq_none_iff.1 found
  | some set =>
    obtain ⟨marked, serialization, result, marked_iff, inside, outside⟩ :=
      spreads.variantSets_of_settled (spread_propagated request) found
    have declared : declaration? request (.variantSet i) = some (.ofSet request.output set) := by
      rw [declaration?, found]
      rfl
    rw [reached_iff distinct declared] at marked_iff
    rw [reachesInside_iff distinct declared] at inside outside
    have same : marked = (spreadSet request.output (declarations request) set).serializable :=
      Bool.eq_iff_iff.2 (marked_iff.trans decide_eq_true_iff.symm)
    rw [result, same, Option.map_some, spreadSet]
    split
    · next named => rw [inside named]
    · next unnamed => rw [outside unnamed]

/-! ## Another order -/

/-- Reaching depends on which declarations there are. -/
theorem reaches_congr {among others : List Declaration} (same : ∀ d, d ∈ among ↔ d ∈ others) :
    Reaches among = Reaches others := by
  funext target
  simp only [Reaches, same]

theorem reachesInside_congr {among others : List Declaration}
    (same : ∀ d, d ∈ among ↔ d ∈ others) : ReachesInside among = ReachesInside others := by
  funext target
  simp only [ReachesInside, reaches_congr same, same]

theorem names_propagated (distinct : request.names.Nodup) :
    request.propagated.names = request.names := by
  rw [Request.names, records_propagated distinct, variantSets_propagated distinct, List.map_map,
    List.map_map]
  rfl

/-- Declarations with different names are marked in the same way in any order. -/
theorem reordered_propagated {other : Request} (reordered : request.Reordered other)
    (distinct : request.names.Nodup) : request.propagated.Reordered other.propagated := by
  have distinct' := reordered.nodup_names distinct
  obtain ⟨perm, perm'⟩ := reordered
  generalize made : { request with records := _, variantSets := _ } = other at distinct'
  have output : other.output = request.output := by rw [← made]
  have same : ∀ d, d ∈ declarations other ↔ d ∈ declarations request := by
    intro d
    subst made
    exact ((perm.map _).append (perm'.map _)).mem_iff
  have records : other.propagated.records.Perm request.propagated.records := by
    rw [records_propagated distinct', records_propagated distinct, output]
    unfold spreadRecord
    rw [reaches_congr same, ← made]
    exact perm.map _
  have variantSets : other.propagated.variantSets.Perm request.propagated.variantSets := by
    rw [variantSets_propagated distinct', variantSets_propagated distinct, output]
    unfold spreadSet
    rw [reaches_congr same, reachesInside_congr same, ← made]
    exact perm'.map _
  have frame : other.propagated = { request.propagated with
      records := other.propagated.records, variantSets := other.propagated.variantSets } := by
    rw [sameFrame_propagated other, sameFrame_propagated request, ← made]
  rw [frame]
  exact .mk records variantSets

end Propagation

end Slotwise
