import Mathlib.Data.Finset.Card
import Mathlib.Data.Finset.Range
import Mathlib.Logic.Relation
import Slotwise.Propagation
/-!
# What serialization spreads to

Rounds of spreading, run until one of them changes nothing, end in the least request that is closed
under references: exactly the declarations that a serializable one reaches are serializable, and
exactly the variant sets that a serializable one refers to have become polymorphic.

A round is described by the targets it marks (`marks`) and by what marking does to one declaration
(`records_foldl_mark`, `variantSets_foldl_mark`). That rounds come to rest is a count: a round that
changes something is the last one to do so or makes one more declaration serializable
(`spreadTimes_settled_or_lt`). What a settled result holds is stated over references from one
declaration to another and their closure (`Refers`, `Reached`).
-/

namespace Slotwise.Propagation

open Relation

/-! ## References between declarations -/

/-- A type and everything it depends on, in any number of steps. -/
inductive Within : TypeRef → TypeRef → Prop where
  /-- The type itself. -/
  | self (type : TypeRef) : Within type type
  /-- What lies within a dependency. -/
  | inside {type dependency inner : TypeRef} (member : dependency ∈ type.dependencies)
      (rest : Within dependency inner) : Within type inner

/-- The fields of a declaration; those of a variant set are its base fields and the fields of all
its variants. -/
def fieldsOf (request : Request) : Target → List Field
  | .record i => (request.records[i]?.map (·.fields)).getD []
  | .variantSet i =>
    (request.variantSets[i]?.map fun set => set.fields ++ set.variants.flatMap (·.fields)).getD []

/-- Whether a declaration is marked for serialization. -/
def Serializable (request : Request) : Target → Prop
  | .record i => ∃ record, request.records[i]? = some record ∧ record.serializable = true
  | .variantSet i => ∃ set, request.variantSets[i]? = some set ∧ set.serializable = true

/-- A field of one declaration resolves to the other, by its type or by a type it depends on.
Transient fields do not count, and a type variable resolves to nothing itself. -/
def RefersThrough (entries : List Entry) (request : Request) (source target : Target) : Prop :=
  ∃ field ∈ fieldsOf request source, field.type.serialization ≠ .transient ∧
    ∃ type, Within field.type type ∧ type.generic ≠ .variable ∧
      resolve? entries type = some target

/-- A reference from one declaration of a request to another one of it. -/
def Refers (request : Request) : Target → Target → Prop :=
  RefersThrough (entries request) request

theorem within_mk_iff {name package : String} {generic : Generic} {dependencies : List TypeRef}
    {serialization : Serialization} {inner : TypeRef} :
    Within (.mk name package generic dependencies serialization) inner ↔
      inner = .mk name package generic dependencies serialization ∨
        ∃ dependency ∈ dependencies, Within dependency inner := by
  constructor
  · intro h
    cases h with
    | self => exact .inl rfl
    | inside member rest => exact .inr ⟨_, member, rest⟩
  · rintro (rfl | ⟨dependency, member, rest⟩)
    · exact .self _
    · exact .inside member rest

mutual

theorem mem_referred_iff {inner : TypeRef} (type : TypeRef) :
    inner ∈ referred type ↔ Within type inner ∧ inner.generic ≠ .variable := by
  cases type with
  | mk name package generic dependencies serialization =>
    rw [referred, List.mem_append, mem_referredAll_iff dependencies, within_mk_iff]
    constructor
    · rintro (own | ⟨⟨dependency, member, rest⟩, notVariable⟩)
      · split at own
        · cases own
        · next notVariable =>
          cases List.mem_singleton.1 own
          exact ⟨.inl rfl, notVariable⟩
      · exact ⟨.inr ⟨dependency, member, rest⟩, notVariable⟩
    · rintro ⟨rfl | rest, notVariable⟩
      · exact .inl (by simpa [TypeRef.generic] using notVariable)
      · exact .inr ⟨rest, notVariable⟩

theorem mem_referredAll_iff {inner : TypeRef} (types : List TypeRef) :
    inner ∈ referredAll types ↔
      (∃ type ∈ types, Within type inner) ∧ inner.generic ≠ .variable := by
  cases types with
  | nil => simp [referredAll]
  | cons type rest =>
    rw [referredAll, List.mem_append, mem_referred_iff type, mem_referredAll_iff rest,
      ← or_and_right]
    simp only [List.mem_cons, exists_eq_or_imp]

end

theorem mem_fieldTypes_iff {type : TypeRef} {fields : List Field} :
    type ∈ fieldTypes fields ↔ ∃ field ∈ fields, field.type.serialization ≠ .transient ∧
      Within field.type type ∧ type.generic ≠ .variable := by
  simp only [fieldTypes, List.mem_flatMap, List.mem_filter, bne_iff_ne, mem_referred_iff, and_assoc]

theorem mem_serializedTypes_iff {type : TypeRef} {request : Request} :
    type ∈ serializedTypes request ↔
      ∃ source, Serializable request source ∧ type ∈ fieldTypes (fieldsOf request source) := by
  simp only [serializedTypes, List.mem_append, List.mem_flatMap, List.mem_filter]
  constructor
  · rintro (⟨record, ⟨member, marked⟩, reached⟩ | ⟨set, ⟨member, marked⟩, reached⟩)
    · obtain ⟨i, found⟩ := List.mem_iff_getElem?.1 member
      exact ⟨.record i, ⟨record, found, marked⟩, by simpa [fieldsOf, found] using reached⟩
    · obtain ⟨i, found⟩ := List.mem_iff_getElem?.1 member
      exact ⟨.variantSet i, ⟨set, found, marked⟩, by simpa [fieldsOf, found] using reached⟩
  · rintro ⟨source, marked, reached⟩
    cases source with
    | record i =>
      obtain ⟨record, found, marked⟩ := marked
      exact .inl ⟨record, ⟨List.mem_of_getElem? found, marked⟩,
        by simpa [fieldsOf, found] using reached⟩
    | variantSet i =>
      obtain ⟨set, found, marked⟩ := marked
      exact .inr ⟨set, ⟨List.mem_of_getElem? found, marked⟩,
        by simpa [fieldsOf, found] using reached⟩

/-! ## One round -/

/-- The targets that a round marks. -/
def marks (entries : List Entry) (request : Request) : List Target :=
  (serializedTypes request).filterMap (resolve? entries)

theorem mem_marks_iff {entries : List Entry} {request : Request} {target : Target} :
    target ∈ marks entries request ↔
      ∃ source, Serializable request source ∧ RefersThrough entries request source target := by
  simp only [marks, List.mem_filterMap, mem_serializedTypes_iff, mem_fieldTypes_iff]
  constructor
  · rintro ⟨type, ⟨source, marked, field, member, kept, within, notVariable⟩, found⟩
    exact ⟨source, marked, field, member, kept, type, within, notVariable, found⟩
  · rintro ⟨source, marked, field, member, kept, type, within, notVariable, found⟩
    exact ⟨type, ⟨source, marked, field, member, kept, within, notVariable⟩, found⟩

/-- What a round that marks `targets` makes of record `i`. -/
def markRecord (targets : List Target) (i : Nat) (record : Record) : Record :=
  if .record i ∈ targets then { record with serializable := true } else record

/-- What a round that marks `targets` makes of variant set `i`. -/
def markSet (targets : List Target) (i : Nat) (set : VariantSet) : VariantSet :=
  if .variantSet i ∈ targets then { set with serializable := true, serialization := .polymorphic }
  else set

theorem markRecord_cons (target : Target) (rest : List Target) (i : Nat) (record : Record) :
    markRecord (target :: rest) i record = markRecord rest i (markRecord [target] i record) := by
  by_cases head : Target.record i = target <;> by_cases tail : Target.record i ∈ rest <;>
    simp [markRecord, head, tail]

theorem markSet_cons (target : Target) (rest : List Target) (i : Nat) (set : VariantSet) :
    markSet (target :: rest) i set = markSet rest i (markSet [target] i set) := by
  by_cases head : Target.variantSet i = target <;> by_cases tail : Target.variantSet i ∈ rest <;>
    simp [markSet, head, tail]

theorem records_mark (request : Request) (target : Target) (i : Nat) :
    (mark request target).records[i]? = request.records[i]?.map (markRecord [target] i) := by
  cases target with
  | record j =>
    rw [mark, List.getElem?_modify]
    congr 1
    funext record
    by_cases same : i = j
    · subst same
      simp [markRecord]
    · simp [markRecord, same, Ne.symm same]
  | variantSet j =>
    have unmarked : markRecord [.variantSet j] i = id := by funext record; simp [markRecord]
    rw [mark, unmarked, Option.map_id, id]

theorem variantSets_mark (request : Request) (target : Target) (i : Nat) :
    (mark request target).variantSets[i]? =
      request.variantSets[i]?.map (markSet [target] i) := by
  cases target with
  | record j =>
    have unmarked : markSet [.record j] i = id := by funext set; simp [markSet]
    rw [mark, unmarked, Option.map_id, id]
  | variantSet j =>
    rw [mark, List.getElem?_modify]
    congr 1
    funext set
    by_cases same : i = j
    · subst same
      simp [markSet]
    · simp [markSet, same, Ne.symm same]

theorem records_foldl_mark (targets : List Target) (request : Request) (i : Nat) :
    (targets.foldl mark request).records[i]? =
      request.records[i]?.map (markRecord targets i) := by
  induction targets generalizing request with
  | nil =>
    have unmarked : markRecord [] i = id := by funext record; simp [markRecord]
    rw [List.foldl_nil, unmarked, Option.map_id, id]
  | cons target rest ih =>
    rw [List.foldl_cons, ih, records_mark, Option.map_map]
    congr 1
    funext record
    exact (markRecord_cons target rest i record).symm

theorem variantSets_foldl_mark (targets : List Target) (request : Request) (i : Nat) :
    (targets.foldl mark request).variantSets[i]? =
      request.variantSets[i]?.map (markSet targets i) := by
  induction targets generalizing request with
  | nil =>
    have unmarked : markSet [] i = id := by funext set; simp [markSet]
    rw [List.foldl_nil, unmarked, Option.map_id, id]
  | cons target rest ih =>
    rw [List.foldl_cons, ih, variantSets_mark, Option.map_map]
    congr 1
    funext set
    exact (markSet_cons target rest i set).symm

/-- Two requests that differ in nothing but their declarations. -/
def SameFrame (request result : Request) : Prop :=
  result = { request with records := result.records, variantSets := result.variantSets }

theorem sameFrame_foldl_mark (targets : List Target) (request : Request) :
    SameFrame request (targets.foldl mark request) := by
  induction targets generalizing request with
  | nil => rfl
  | cons target rest ih =>
    rw [List.foldl_cons]
    have step := ih (mark request target)
    cases target <;> exact step

theorem SameFrame.ext {request first second : Request} (frame₁ : SameFrame request first)
    (frame₂ : SameFrame request second)
    (records : ∀ i : Nat, first.records[i]? = second.records[i]?)
    (variantSets : ∀ i : Nat, first.variantSets[i]? = second.variantSets[i]?) : first = second := by
  rw [frame₁, frame₂, List.ext_getElem? records, List.ext_getElem? variantSets]

theorem fieldsOf_foldl_mark (targets : List Target) (request : Request) (source : Target) :
    fieldsOf (targets.foldl mark request) source = fieldsOf request source := by
  cases source with
  | record i =>
    simp only [fieldsOf, records_foldl_mark, Option.map_map]
    congr 2
    funext record
    by_cases marked : Target.record i ∈ targets <;> simp [markRecord, marked]
  | variantSet i =>
    simp only [fieldsOf, variantSets_foldl_mark, Option.map_map]
    congr 2
    funext set
    by_cases marked : Target.variantSet i ∈ targets <;> simp [markSet, marked]

theorem refersThrough_foldl_mark_iff {entries : List Entry} {targets : List Target}
    {request : Request} {source target : Target} :
    RefersThrough entries (targets.foldl mark request) source target ↔
      RefersThrough entries request source target := by
  rw [RefersThrough, RefersThrough, fieldsOf_foldl_mark]

theorem entries_foldl_mark (targets : List Target) (request : Request) :
    entries (targets.foldl mark request) = entries request := by
  have frame : (targets.foldl mark request).output = request.output := by
    rw [sameFrame_foldl_mark targets request]
  unfold entries
  rw [frame]
  refine congrArg₂ _ ?_ ?_
  · apply List.ext_getElem?
    intro i
    simp only [List.getElem?_map, List.getElem?_zipIdx, records_foldl_mark, Option.map_map]
    congr 1
    funext record
    by_cases marked : Target.record i ∈ targets <;> simp [markRecord, marked]
  · apply List.ext_getElem?
    intro i
    simp only [List.getElem?_map, List.getElem?_zipIdx, variantSets_foldl_mark, Option.map_map]
    congr 1
    funext set
    by_cases marked : Target.variantSet i ∈ targets <;> simp [markSet, marked]

theorem length_foldl_mark (targets : List Target) (request : Request) :
    (targets.foldl mark request).records.length = request.records.length ∧
      (targets.foldl mark request).variantSets.length = request.variantSets.length := by
  induction targets generalizing request with
  | nil => exact ⟨rfl, rfl⟩
  | cons target rest ih =>
    obtain ⟨records, variantSets⟩ := ih (mark request target)
    rw [List.foldl_cons, records, variantSets]
    cases target <;> simp [mark]

/-- Whether a target is one of the request's declarations. -/
def Declared (request : Request) : Target → Prop
  | .record i => i < request.records.length
  | .variantSet i => i < request.variantSets.length

theorem declared_of_resolve? {request : Request} {type : TypeRef} {target : Target}
    (found : resolve? (entries request) type = some target) : Declared request target := by
  obtain ⟨entry, lookup, rfl⟩ := Option.map_eq_some_iff.1 found
  have member := List.mem_of_find?_eq_some lookup
  simp only [entries, List.mem_append, List.mem_map, Prod.exists] at member
  obtain ⟨record, i, place, rfl⟩ | ⟨set, i, place, rfl⟩ := member
  · exact (List.mem_zipIdx' place).1
  · exact (List.mem_zipIdx' place).1

theorem Declared.of_refersThrough {request marked : Request} {source target : Target}
    (refers : RefersThrough (entries request) marked source target) : Declared request target := by
  obtain ⟨_, _, _, _, _, _, found⟩ := refers
  exact declared_of_resolve? found

theorem serializable_foldl_mark_iff {targets : List Target} {request : Request} {target : Target} :
    Serializable (targets.foldl mark request) target ↔
      Serializable request target ∨ Declared request target ∧ target ∈ targets := by
  cases target with
  | record i =>
    simp only [Serializable, Declared, records_foldl_mark, Option.map_eq_some_iff]
    by_cases marked : Target.record i ∈ targets
    · simp only [markRecord, marked, if_true, and_true]
      constructor
      · rintro ⟨_, ⟨record, found, rfl⟩, -⟩
        exact .inr (List.getElem?_eq_some_iff.1 found).1
      · rintro (⟨record, found, -⟩ | declared)
        · exact ⟨_, ⟨record, found, rfl⟩, rfl⟩
        · exact ⟨_, ⟨_, List.getElem?_eq_getElem declared, rfl⟩, rfl⟩
    · simp [markRecord, marked]
  | variantSet i =>
    simp only [Serializable, Declared, variantSets_foldl_mark, Option.map_eq_some_iff]
    by_cases marked : Target.variantSet i ∈ targets
    · simp only [markSet, marked, if_true, and_true]
      constructor
      · rintro ⟨_, ⟨set, found, rfl⟩, -⟩
        exact .inr (List.getElem?_eq_some_iff.1 found).1
      · rintro (⟨set, found, -⟩ | declared)
        · exact ⟨_, ⟨set, found, rfl⟩, rfl⟩
        · exact ⟨_, ⟨_, List.getElem?_eq_getElem declared, rfl⟩, rfl⟩
    · simp [markSet, marked]

/-- Marking again what is marked changes nothing. -/
theorem foldl_mark_foldl_mark {again targets : List Target} (sub : again ⊆ targets)
    (request : Request) :
    again.foldl mark (targets.foldl mark request) = targets.foldl mark request := by
  have frame := sameFrame_foldl_mark targets request
  have frameAgain : SameFrame request (again.foldl mark (targets.foldl mark request)) := by
    rw [← List.foldl_append]
    exact sameFrame_foldl_mark _ _
  refine frameAgain.ext frame (fun i => ?_) (fun i => ?_)
  · rw [records_foldl_mark, records_foldl_mark, Option.map_map]
    congr 1
    funext record
    by_cases marked : Target.record i ∈ again
    · simp [markRecord, marked, sub marked]
    · simp [markRecord, marked]
  · rw [variantSets_foldl_mark, variantSets_foldl_mark, Option.map_map]
    congr 1
    funext set
    by_cases marked : Target.variantSet i ∈ again
    · simp [markSet, marked, sub marked]
    · simp [markSet, marked]

/-! ## Rounds come to rest -/

theorem Serializable.declared {request : Request} {target : Target}
    (serializable : Serializable request target) : Declared request target := by
  cases target with
  | record i =>
    obtain ⟨_, found, -⟩ := serializable
    exact (List.getElem?_eq_some_iff.1 found).1
  | variantSet i =>
    obtain ⟨_, found, -⟩ := serializable
    exact (List.getElem?_eq_some_iff.1 found).1

theorem entries_spread (request : Request) :
    entries (spread (entries request) request) = entries request :=
  entries_foldl_mark _ _

theorem serializable_spread_iff {request : Request} {target : Target} :
    Serializable (spread (entries request) request) target ↔
      Serializable request target ∨ target ∈ marks (entries request) request := by
  have round : spread (entries request) request =
      (marks (entries request) request).foldl mark request := rfl
  rw [round, serializable_foldl_mark_iff]
  refine or_congr_right ⟨And.right, fun marked => ⟨?_, marked⟩⟩
  obtain ⟨source, -, refers⟩ := mem_marks_iff.1 marked
  exact .of_refersThrough refers

/-- A round that makes nothing serializable is followed by one that changes nothing. -/
theorem spread_settled {request : Request}
    (nothingNew : ∀ target, Serializable (spread (entries request) request) target →
      Serializable request target) :
    spread (entries request) (spread (entries request) request) =
      spread (entries request) request := by
  refine foldl_mark_foldl_mark (fun target marked => ?_) request
  obtain ⟨source, serializable, refers⟩ := mem_marks_iff.1 marked
  exact mem_marks_iff.2
    ⟨source, nothingNew source serializable, refersThrough_foldl_mark_iff.1 refers⟩

open Classical in
/-- The serializable declarations of a request. -/
noncomputable def serializableTargets (request : Request) : Finset Target :=
  ((Finset.range request.records.length).image .record ∪
    (Finset.range request.variantSets.length).image .variantSet).filter (Serializable request)

theorem mem_serializableTargets_iff {request : Request} {target : Target} :
    target ∈ serializableTargets request ↔ Serializable request target := by
  simp only [serializableTargets, Finset.mem_filter, Finset.mem_union, Finset.mem_image,
    Finset.mem_range]
  refine ⟨And.right, fun serializable => ⟨?_, serializable⟩⟩
  have declared := serializable.declared
  cases target with
  | record i => exact .inl ⟨i, declared, rfl⟩
  | variantSet i => exact .inr ⟨i, declared, rfl⟩

theorem card_serializableTargets_le (request : Request) :
    (serializableTargets request).card ≤ request.records.length + request.variantSets.length := by
  classical
  refine (Finset.card_filter_le _ _).trans ((Finset.card_union_le _ _).trans ?_)
  exact Nat.add_le_add (Finset.card_image_le.trans (Finset.card_range _).le)
    (Finset.card_image_le.trans (Finset.card_range _).le)

theorem serializableTargets_subset_spread (request : Request) :
    serializableTargets request ⊆ serializableTargets (spread (entries request) request) := by
  intro target member
  rw [mem_serializableTargets_iff] at member ⊢
  exact serializable_spread_iff.2 (.inl member)

theorem spreadTimes_succ (entries : List Entry) (rounds : Nat) (request : Request) :
    spreadTimes entries (rounds + 1) request =
      spread entries (spreadTimes entries rounds request) := by
  induction rounds generalizing request with
  | zero => rfl
  | succ rounds ih => rw [spreadTimes, ih, ← spreadTimes]

theorem entries_spreadTimes (rounds : Nat) (request : Request) :
    entries (spreadTimes (entries request) rounds request) = entries request := by
  induction rounds with
  | zero => rfl
  | succ rounds ih =>
    rw [spreadTimes_succ]
    generalize spreadTimes (entries request) rounds request = current at ih ⊢
    rw [← ih, entries_spread]

/-- After some rounds nothing changes any more, or there are more serializable declarations than
there were rounds. -/
theorem spreadTimes_settled_or_lt (rounds : Nat) (request : Request) :
    spread (entries request) (spreadTimes (entries request) rounds request) =
        spreadTimes (entries request) rounds request ∨
      rounds < (serializableTargets (spreadTimes (entries request) rounds request)).card := by
  induction rounds with
  | zero =>
    rw [spreadTimes]
    by_cases any : (serializableTargets request).Nonempty
    · exact .inr any.card_pos
    -- a round in which nothing is serializable marks nothing
    · have unmarked : marks (entries request) request = [] := by
        rw [List.eq_nil_iff_forall_not_mem]
        intro target marked
        obtain ⟨source, serializable, -⟩ := mem_marks_iff.1 marked
        exact any ⟨source, mem_serializableTargets_iff.2 serializable⟩
      have round : spread (entries request) request =
          (marks (entries request) request).foldl mark request := rfl
      rw [round, unmarked]
      exact .inl rfl
  | succ rounds ih =>
    rw [spreadTimes_succ]
    have same := entries_spreadTimes rounds request
    generalize spreadTimes (entries request) rounds request = current at ih same ⊢
    rw [← same] at ih ⊢
    obtain settled | counted := ih
    · exact .inl (congrArg _ settled)
    · by_cases new : serializableTargets (spread (entries current) current) ⊆
          serializableTargets current
      · refine .inl (spread_settled fun target serializable => ?_)
        exact mem_serializableTargets_iff.1 (new (mem_serializableTargets_iff.2 serializable))
      · have grown := Finset.card_lt_card ⟨serializableTargets_subset_spread current, new⟩
        exact .inr (by omega)

/-! ## What is reached -/

/-- A target is reached from a serializable declaration through any number of references. -/
def Reached (request : Request) (target : Target) : Prop :=
  ∃ start, Serializable request start ∧ ReflTransGen (Refers request) start target

/-- The result is the request with targets marked that reached declarations refer to. -/
def SpreadsTo (request result : Request) : Prop :=
  ∃ targets : List Target, result = targets.foldl mark request ∧
    ∀ target ∈ targets, ∃ source, Reached request source ∧ Refers request source target

theorem SpreadsTo.reached {request result : Request} (spreads : SpreadsTo request result)
    {target : Target} (serializable : Serializable result target) : Reached request target := by
  obtain ⟨targets, rfl, marked⟩ := spreads
  obtain before | ⟨-, member⟩ := serializable_foldl_mark_iff.1 serializable
  · exact ⟨target, before, .refl⟩
  · obtain ⟨source, ⟨start, serializable, path⟩, refers⟩ := marked target member
    exact ⟨start, serializable, path.tail refers⟩

theorem SpreadsTo.refers_iff {request result : Request} (spreads : SpreadsTo request result)
    {source target : Target} :
    RefersThrough (entries request) result source target ↔ Refers request source target := by
  obtain ⟨targets, rfl, -⟩ := spreads
  exact refersThrough_foldl_mark_iff

theorem SpreadsTo.spread {request result : Request} (spreads : SpreadsTo request result) :
    SpreadsTo request (spread (entries request) result) := by
  have reached := @spreads.reached
  have refers := @spreads.refers_iff
  obtain ⟨targets, equation, marked⟩ := spreads
  refine ⟨targets ++ marks (entries request) result, ?_, fun target member => ?_⟩
  · rw [List.foldl_append, ← equation, Propagation.spread, marks]
  · obtain old | new := List.mem_append.1 member
    · exact marked target old
    · obtain ⟨source, serializable, through⟩ := mem_marks_iff.1 new
      exact ⟨source, reached serializable, refers.1 through⟩

theorem spreadsTo_spreadTimes (rounds : Nat) (request : Request) :
    SpreadsTo request (spreadTimes (entries request) rounds request) := by
  induction rounds with
  | zero => exact ⟨[], rfl, by simp⟩
  | succ rounds ih =>
    rw [spreadTimes_succ]
    exact ih.spread

/-- A request that a round leaves as it is holds every mark of that round. -/
theorem SpreadsTo.mark_of_settled {request result : Request} (spreads : SpreadsTo request result)
    (settled : Propagation.spread (entries request) result = result) {source target : Target}
    (serializable : Serializable result source) (refers : Refers request source target) :
    Serializable result target := by
  have marked : target ∈ marks (entries request) result :=
    mem_marks_iff.2 ⟨source, serializable, spreads.refers_iff.2 refers⟩
  obtain ⟨targets, equation, -⟩ := spreads
  have same : entries result = entries request := by rw [equation, entries_foldl_mark]
  rw [← same] at marked
  rw [← settled, ← same]
  exact serializable_spread_iff.2 (.inr marked)

theorem SpreadsTo.serializable_iff {request result : Request} (spreads : SpreadsTo request result)
    (settled : Propagation.spread (entries request) result = result) {target : Target} :
    Serializable result target ↔ Reached request target := by
  refine ⟨spreads.reached, ?_⟩
  rintro ⟨start, serializable, path⟩
  induction path with
  | refl =>
    obtain ⟨targets, rfl, -⟩ := spreads
    exact serializable_foldl_mark_iff.2 (.inl serializable)
  | tail _ refers ih => exact spreads.mark_of_settled settled ih refers

/-- A variant set that a serializable declaration refers to is polymorphic once rounds are at rest. -/
theorem SpreadsTo.polymorphic_of_settled {request result : Request}
    (spreads : SpreadsTo request result)
    (settled : Propagation.spread (entries request) result = result) {i : Nat} {set : VariantSet}
    (found : result.variantSets[i]? = some set) {source : Target}
    (serializable : Serializable result source) (refers : Refers request source (.variantSet i)) :
    set.serialization = .polymorphic := by
  have marked : .variantSet i ∈ marks (entries request) result :=
    mem_marks_iff.2 ⟨source, serializable, spreads.refers_iff.2 refers⟩
  have again := variantSets_foldl_mark (marks (entries request) result) result i
  have round : Propagation.spread (entries request) result =
      (marks (entries request) result).foldl mark result := rfl
  rw [← round, settled, found, Option.map_some, Option.some_inj, markSet, if_pos marked] at again
  rw [again]

/-! ## The result -/

theorem spread_propagated (request : Request) :
    spread (entries request) request.propagated = request.propagated := by
  obtain settled | counted := spreadTimes_settled_or_lt
    (request.records.length + request.variantSets.length) request
  · exact settled
  · have bound := card_serializableTargets_le request.propagated
    obtain ⟨targets, equation, -⟩ := spreadsTo_spreadTimes
      (request.records.length + request.variantSets.length) request
    obtain ⟨records, variantSets⟩ := length_foldl_mark targets request
    rw [← equation] at records variantSets
    rw [Request.propagated] at bound
    omega

theorem sameFrame_propagated (request : Request) : SameFrame request request.propagated := by
  obtain ⟨targets, equation, -⟩ := spreadsTo_spreadTimes
    (request.records.length + request.variantSets.length) request
  rw [Request.propagated, equation]
  exact sameFrame_foldl_mark targets request

/-- A change of what is no declaration does not count for the spreading, nor the spreading for it. -/
theorem propagated_of_beside {change : Request → Request}
    (mark_change : ∀ request target, mark (change request) target = change (mark request target))
    (types : ∀ request, serializedTypes (change request) = serializedTypes request)
    {request : Request} (declarations : entries (change request) = entries request)
    (records : (change request).records = request.records)
    (variantSets : (change request).variantSets = request.variantSets) :
    (change request).propagated = change request.propagated := by
  have marked (targets : List Target) (request : Request) :
      targets.foldl mark (change request) = change (targets.foldl mark request) := by
    induction targets generalizing request with
    | nil => rfl
    | cons target rest ih => rw [List.foldl_cons, List.foldl_cons, mark_change, ih]
  have rounds (entries : List Entry) (count : Nat) (request : Request) :
      spreadTimes entries count (change request) = change (spreadTimes entries count request) := by
    induction count generalizing request with
    | zero => rfl
    | succ count ih => rw [spreadTimes, spreadTimes, spread, spread, types, marked, ih]
  rw [Request.propagated, Request.propagated, declarations, records, variantSets, rounds]

theorem getElem?_records_propagated {request : Request} {i : Nat} {record : Record}
    (found : request.propagated.records[i]? = some record) :
    ∃ original, request.records[i]? = some original ∧
      record = { original with serializable := record.serializable } := by
  obtain ⟨targets, equation, -⟩ := spreadsTo_spreadTimes
    (request.records.length + request.variantSets.length) request
  rw [Request.propagated, equation, records_foldl_mark, Option.map_eq_some_iff] at found
  obtain ⟨original, found, rfl⟩ := found
  refine ⟨original, found, ?_⟩
  by_cases marked : Target.record i ∈ targets <;> simp [markRecord, marked]

theorem getElem?_variantSets_propagated {request : Request} {i : Nat} {set : VariantSet}
    (found : request.propagated.variantSets[i]? = some set) :
    ∃ original, request.variantSets[i]? = some original ∧
      set = { original with
        serializable := set.serializable, serialization := set.serialization } := by
  obtain ⟨targets, equation, -⟩ := spreadsTo_spreadTimes
    (request.records.length + request.variantSets.length) request
  rw [Request.propagated, equation, variantSets_foldl_mark, Option.map_eq_some_iff] at found
  obtain ⟨original, found, rfl⟩ := found
  refine ⟨original, found, ?_⟩
  by_cases marked : Target.variantSet i ∈ targets <;> simp [markSet, marked]

theorem spreadTimes_settled {entries : List Entry} {request : Request}
    (settled : spread entries request = request) (rounds : Nat) :
    spreadTimes entries rounds request = request := by
  induction rounds with
  | zero => rfl
  | succ rounds ih => rw [spreadTimes, settled, ih]

/-- Rounds of spreading, run until one changes nothing, end in a result. -/
inductive Settles (entries : List Entry) : Request → Request → Prop where
  /-- The next round would change nothing. -/
  | done {request : Request} (settled : spread entries request = request) :
    Settles entries request request
  /-- One round changes something, and the rounds after it end in the result. -/
  | round {request result : Request} (changed : spread entries request ≠ request)
      (rest : Settles entries (spread entries request) result) : Settles entries request result

theorem settles_spreadTimes {entries : List Entry} {rounds : Nat} {request : Request}
    (settled : spread entries (spreadTimes entries rounds request) =
      spreadTimes entries rounds request) :
    Settles entries request (spreadTimes entries rounds request) := by
  induction rounds generalizing request with
  | zero => exact .done settled
  | succ rounds ih =>
    by_cases unchanged : spread entries request = request
    · rw [spreadTimes_settled unchanged]
      exact .done unchanged
    · exact .round unchanged (ih settled)

theorem SpreadsTo.records_of_settled {request result : Request} (spreads : SpreadsTo request result)
    (settled : Propagation.spread (entries request) result = result) {i : Nat} {record : Record}
    (found : request.records[i]? = some record) :
    ∃ marked, result.records[i]? = some { record with serializable := marked } ∧
      (marked = true ↔ Reached request (.record i)) := by
  have serializable_iff := @spreads.serializable_iff _ _ settled (.record i)
  obtain ⟨targets, equation, -⟩ := spreads
  have result_found : result.records[i]? = some (markRecord targets i record) := by
    rw [equation, records_foldl_mark, found, Option.map_some]
  have same : markRecord targets i record =
      { record with serializable := (markRecord targets i record).serializable } := by
    by_cases member : Target.record i ∈ targets <;> simp [markRecord, member]
  refine ⟨(markRecord targets i record).serializable, same ▸ result_found, ?_⟩
  rw [← serializable_iff, Serializable, result_found]
  simp

theorem SpreadsTo.variantSets_of_settled {request result : Request}
    (spreads : SpreadsTo request result)
    (settled : Propagation.spread (entries request) result = result) {i : Nat} {set : VariantSet}
    (found : request.variantSets[i]? = some set) :
    ∃ marked serialization, result.variantSets[i]? =
        some { set with serializable := marked, serialization := serialization } ∧
      (marked = true ↔ Reached request (.variantSet i)) ∧
      ((∃ source, Serializable result source ∧ Refers request source (.variantSet i)) →
        serialization = .polymorphic) ∧
      ((¬ ∃ source, Serializable result source ∧ Refers request source (.variantSet i)) →
        serialization = set.serialization) := by
  have serializable_iff := @spreads.serializable_iff _ _ settled
  have polymorphic := @spreads.polymorphic_of_settled _ _ settled i
  obtain ⟨targets, equation, referred⟩ := spreads
  have result_found : result.variantSets[i]? = some (markSet targets i set) := by
    rw [equation, variantSets_foldl_mark, found, Option.map_some]
  have same : markSet targets i set =
      { set with
        serializable := (markSet targets i set).serializable,
        serialization := (markSet targets i set).serialization } := by
    by_cases member : Target.variantSet i ∈ targets <;> simp [markSet, member]
  refine ⟨(markSet targets i set).serializable, (markSet targets i set).serialization,
    same ▸ result_found, ?_, ?_, fun unreferred => ?_⟩
  · rw [← serializable_iff, Serializable, result_found]
    simp
  · rintro ⟨source, serializable, refers⟩
    exact polymorphic result_found serializable refers
  · have unmarked : .variantSet i ∉ targets := by
      intro member
      obtain ⟨source, reached, refers⟩ := referred _ member
      exact unreferred ⟨source, serializable_iff.2 reached, refers⟩
    rw [markSet, if_neg unmarked]

open Classical in
/-- Propagation settles, in the least request closed under references: its serializable
declarations are the reached ones, its variant sets are polymorphic where a serializable declaration
refers to them, and nothing else differs. -/
theorem propagated_eq_closure (request : Request) :
    Settles (entries request) request request.propagated ∧
      SameFrame request request.propagated ∧
      (∀ i : Nat, request.propagated.records[i]? = request.records[i]?.map fun record =>
        { record with serializable := decide (Reached request (.record i)) }) ∧
      (∀ i : Nat, request.propagated.variantSets[i]? = request.variantSets[i]?.map fun set =>
        { set with
          serializable := decide (Reached request (.variantSet i)),
          serialization :=
            if ∃ source, Serializable request.propagated source ∧
                Refers request source (.variantSet i) then
              .polymorphic
            else set.serialization }) ∧
      request.propagated.propagated = request.propagated := by
  have settled := spread_propagated request
  have spreads : SpreadsTo request request.propagated := spreadsTo_spreadTimes _ request
  refine ⟨settles_spreadTimes settled, sameFrame_propagated request, fun i => ?_, fun i => ?_, ?_⟩
  · cases found : request.records[i]? with
    | none =>
      obtain ⟨targets, equation, -⟩ := spreads
      rw [equation, records_foldl_mark, found, Option.map_none, Option.map_none]
    | some record =>
      obtain ⟨marked, result_found, marked_iff⟩ := spreads.records_of_settled settled found
      have same : marked = decide (Reached request (.record i)) :=
        Bool.eq_iff_iff.2 (marked_iff.trans decide_eq_true_iff.symm)
      rw [result_found, same, Option.map_some]
  · cases found : request.variantSets[i]? with
    | none =>
      obtain ⟨targets, equation, -⟩ := spreads
      rw [equation, variantSets_foldl_mark, found, Option.map_none, Option.map_none]
    | some set =>
      obtain ⟨marked, serialization, result_found, marked_iff, referred, unreferred⟩ :=
        spreads.variantSets_of_settled settled found
      have same : marked = decide (Reached request (.variantSet i)) :=
        Bool.eq_iff_iff.2 (marked_iff.trans decide_eq_true_iff.symm)
      rw [result_found, same, Option.map_some]
      split
      · next isReferred => rw [referred isReferred]
      · next notReferred => rw [unreferred notReferred]
  · have same : entries request.propagated = entries request := entries_spreadTimes _ request
    rw [Request.propagated, same]
    exact spreadTimes_settled settled _

end Slotwise.Propagation
