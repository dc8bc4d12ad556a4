import Slotwise.Proofs.LensItems
import Slotwise.Proofs.LibraryRoot
import Slotwise.Proofs.ManifestText
import Slotwise.Proofs.Silent
/-!
# Serialization from declarations to the manifest

Whether a record, a variant set or a key group can be serialized is decided by its declaration in
the request of the plan, which serialization has been spread in already. The files of all three
follow this one decision, each in its own way: types derive the traits (`Optics.SerializesAs`), keys
implement them (`Keys.SerializesAs`), and all other files are silent. The manifest lists what
serialization needs as soon as the file of some job provides it (`serialization_listed`).
-/

namespace Slotwise

open Code Naming

namespace Code

namespace Node

/-! ## What items provide -/

/-- The traits that an attribute derives. -/
def derived : Node → List String
  | attr _ (metaList name _ tokens) =>
    if name.firstName? = some "derive" then tokens.filterMap Token.word? else []
  | _ => []

/-- The attributes in front of a piece of code. -/
def attributes : Node → List Node
  | attributed attributes _ => attributes
  | _ => []

/-- The trait that an item implements. -/
def implemented? : Node → Option String
  | implementation _ _ _ (some trait) _ _ _ => trait.firstName?
  | _ => none

/-- The traits that an item derives for its type or implements. -/
def provides (item : Node) : List String :=
  item.attributes.flatMap derived ++ item.implemented?.toList

/-- Whether an item declares a type with fields or cases. -/
def isType : Node → Bool
  | attributed _ item => item.isType
  | visible _ item => item.isType
  | fieldStruct _ _ _ _ _ _ => true
  | enumeration _ _ _ _ _ => true
  | _ => false

/-- The fields of a case. -/
def caseMembers : Node → List Node
  | attributed _ case_ => case_.caseMembers
  | fieldVariant _ members _ _ => members
  | _ => []

/-- The fields of a type, those of all its cases for an enumeration. -/
def members : Node → List Node
  | attributed _ item => item.members
  | visible _ item => item.members
  | fieldStruct _ _ _ _ members _ => members
  | enumeration _ _ _ variants _ => variants.flatMap caseMembers
  | _ => []

@[simp] theorem attributes_behind {attributes : List Node} {node : Node}
    (plain : node.attributes = []) : (behind attributes node).attributes = attributes := by
  unfold behind
  split
  · next none_ => rw [plain, List.isEmpty_iff.1 none_]
  · rfl

@[simp] theorem isType_behind (attributes : List Node) (node : Node) :
    (behind attributes node).isType = node.isType := by
  unfold behind
  split <;> simp [isType]

@[simp] theorem members_behind (attributes : List Node) (node : Node) :
    (behind attributes node).members = node.members := by
  unfold behind
  split <;> simp [members]

@[simp] theorem caseMembers_behind (attributes : List Node) (node : Node) :
    (behind attributes node).caseMembers = node.caseMembers := by
  unfold behind
  split <;> simp [caseMembers]

theorem implemented?_behind (attributes : List Node) {node : Node} (h : node.implemented? = none) :
    (behind attributes node).implemented? = none := by
  unfold behind
  split
  · exact h
  · rfl

@[simp] theorem derived_docLine (text : String) : (docLine text).derived = [] := rfl

theorem derived_derivation (traits : List String) : (derivation traits).derived = traits :=
  filterMap_word?_listedWords traits

/-- Silent items provide nothing of serialization. -/
theorem Silent.not_mem_provides {item : Node} (silent : item.Silent) {trait : String}
    (h : trait ∈ item.provides) : trait ∉ serializationNames := by
  obtain ⟨here, below⟩ := (silent_iff item).1 silent
  obtain derives | implements := List.mem_append.1 h
  · obtain ⟨attribute_, member, derives⟩ := List.mem_flatMap.1 derives
    have inside : attribute_ ∈ item.parts := by
      cases item with
      | attributed attributes subject => exact List.mem_append_left _ member
      | _ => cases member
    refine ((silent_iff attribute_).1 (below _ inside)).1 trait ?_
    cases attribute_ with
    | attr inner content =>
      cases content with
      | metaList name bracket tokens =>
        rw [derived] at derives
        split at derives
        · exact List.mem_append_right _ derives
        · cases derives
      | _ => cases derives
    | _ => cases derives
  · refine here trait ?_
    cases item with
    | implementation words generics negative ofTrait type clause items =>
      cases ofTrait with
      | none => cases implements
      | some name => exact implements
    | _ => cases implements

end Node

/-- The traits that the items of a file derive or implement. -/
def File.provides (file : File) : List String :=
  file.items.flatMap Node.provides

theorem File.Silent.not_mem_provides {file : File} (silent : file.Silent) {trait : String}
    (h : trait ∈ Node.serializationTraits) : trait ∉ file.provides := by
  intro provided
  obtain ⟨item, member, provided⟩ := List.mem_flatMap.1 provided
  exact (silent.2 item member).not_mem_provides provided (List.mem_cons_of_mem _ h)

end Code

open Code.Node

/-! ## Records and variant sets -/

namespace Optics

/-- The import of both traits. -/
def traitImport : Node :=
  useItem false (useStep "serde"
    (some (useGroup (["Deserialize", "Serialize"].map (useStep · none)) false)))

/-- The attribute that tells the cases of an enumeration apart by a tag. -/
def tagAttribute : Node :=
  attr false (metaList (named "serde") .round
    [.word "tag", .mark '=' false, .literal "\"type\""])

/-- The attributes of a field are those it is declared with. Only where the declaration can be
serialized, one for the field's part in it may come behind them. -/
def FieldAttributes (owner : String) (serializable : Bool) (field : Field)
    (attributes : List Node) : Prop :=
  ∃ modifiers part, field.modifiers.mapM (ModelText.modifier owner) = .ok modifiers ∧
    attributes = docLines field.doc ++ modifiers.map (attr false) ++ part ∧
    (serializable = true →
      FieldCode.serializationAttribute owner field.type.serialization = .ok part) ∧
    (serializable = false → part = [])

/-- The type of a file takes part in serialization as its declaration says. -/
structure SerializesAs (owner : String) (serializable tagged : Bool) (fields : List Field)
    (file : File) : Prop where
  /-- The traits are imported. -/
  imports : traitImport ∈ file.items ↔ serializable = true
  /-- The file provides the traits. -/
  provides : ∀ trait ∈ serializationTraits, trait ∈ file.provides ↔ serializable = true
  /-- They are derived for the only type of the file, which has a tag where its cases need one, and
  whose fields have no attributes but their own and those for their part in serialization. -/
  type : ∃ type, file.items.filter isType = [type] ∧
    (∀ trait ∈ serializationTraits,
      trait ∈ type.attributes.flatMap derived ↔ serializable = true) ∧
    (tagAttribute ∈ type.attributes ↔ serializable = true ∧ tagged = true) ∧
    List.Forall₂ (FieldAttributes owner serializable) fields (type.members.map attributes)

theorem fieldAttributes_of_ofField {owner : String} {serializable : Bool} {field : Field}
    {code : FieldCode} (h : FieldCode.ofField owner serializable field = .ok code) :
    FieldAttributes owner serializable field code.attributes := by
  obtain ⟨name, -, h⟩ := Outcome.bind_eq_ok_iff.1 h
  obtain ⟨type, -, h⟩ := Outcome.bind_eq_ok_iff.1 h
  obtain ⟨default, -, h⟩ := Outcome.bind_eq_ok_iff.1 h
  obtain ⟨modifiers, modifiersOk, h⟩ := Outcome.bind_eq_ok_iff.1 h
  obtain ⟨part, partOk, h⟩ := Outcome.ite_bind_eq_ok_iff.1 h
  cases Outcome.pure_eq_ok_iff.1 h
  refine ⟨modifiers, part, modifiersOk, rfl, fun serialized => ?_, fun plain => ?_⟩
  · rwa [if_pos serialized] at partOk
  · rw [if_neg (by simp [plain])] at partOk
    exact (Outcome.pure_eq_ok_iff.1 partOk).symm

theorem fieldAttributes_of_ofFields {owner : String} {serializable : Bool} {fields : List Field}
    {codes : List FieldCode} (h : FieldCode.ofFields owner serializable fields = .ok codes) :
    List.Forall₂ (FieldAttributes owner serializable) fields (codes.map (·.attributes)) := by
  rw [List.forall₂_map_right_iff]
  exact (Outcome.mapM_eq_ok_iff.1 h).imp fun _ _ => fieldAttributes_of_ofField

/-! ### What both have in common -/

theorem mem_derived_typeDerivation_iff {trait : String} (h : trait ∈ serializationTraits)
    (serializable : Bool) :
    trait ∈ (typeDerivation serializable).derived ↔ serializable = true := by
  rw [typeDerivation, derived_derivation]
  obtain rfl | rfl : trait = "Serialize" ∨ trait = "Deserialize" := by
    simpa [serializationTraits] using h
  all_goals cases serializable <;> decide

theorem flatMap_derived_docLines (lines : List String) : (docLines lines).flatMap derived = [] := by
  rw [docLines, List.flatMap_map, List.flatMap_eq_nil_iff]
  exact fun line _ => derived_docLine _

theorem importSteps_ne_traitImport (rooted : Bool) (names : List String) :
    useItem rooted (importSteps names) ≠ traitImport := by
  intro same
  have steps := (useItem.inj same).2
  match names with
  | [] => cases steps
  | [name] => cases steps
  | [name, _] => cases steps
  | name :: _ :: _ :: _ => cases steps

theorem exists_of_mem_typeImports {owner : String} {types : List TypeRef} {own : List Node}
    (h : typeImports owner types = .ok own) {node : Node} (member : node ∈ own) :
    ∃ rooted names, node = useItem rooted (importSteps names) := by
  obtain ⟨paths, read, h⟩ := Outcome.bind_eq_ok_iff.1 h
  rw [← Outcome.pure_eq_ok_iff.1 h] at member
  obtain ⟨path, inside, rfl⟩ := List.mem_map.1 member
  obtain ⟨text, -, ok⟩ := Outcome.mem_of_mapM read inside
  obtain ⟨rooted, segments, rfl⟩ := exists_path_of_path ok
  exact ⟨rooted, _, rfl⟩

/-! ### The type of a file and what stands beside it -/

/-- The attributes of a type. -/
def typeAttributes (doc : List String) (serializable tagged : Bool) : List Node :=
  docLines doc ++ [typeDerivation serializable] ++
    if serializable && tagged then [tagAttribute] else []

theorem mem_derived_typeAttributes_iff (doc : List String) (serializable tagged : Bool)
    {trait : String} (h : trait ∈ serializationTraits) :
    trait ∈ (typeAttributes doc serializable tagged).flatMap derived ↔ serializable = true := by
  have ofTag : (if serializable && tagged then [tagAttribute] else []).flatMap derived = [] := by
    split <;> rfl
  rw [typeAttributes, List.flatMap_append, List.flatMap_append, flatMap_derived_docLines, ofTag,
    List.nil_append, List.append_nil, List.flatMap_singleton]
  exact mem_derived_typeDerivation_iff h serializable

theorem tagAttribute_mem_typeAttributes_iff (doc : List String) (serializable tagged : Bool) :
    tagAttribute ∈ typeAttributes doc serializable tagged ↔
      serializable = true ∧ tagged = true := by
  have ofDocs : tagAttribute ∉ docLines doc := by
    intro member
    obtain ⟨line, -, same⟩ := List.mem_map.1 member
    cases same
  have ofDerivation : tagAttribute ≠ typeDerivation serializable := by
    intro same
    have derives := congrArg derived same
    rw [typeDerivation, derived_derivation] at derives
    cases derives
  rw [typeAttributes, List.append_assoc, List.mem_append, or_iff_right ofDocs,
    List.singleton_append, List.mem_cons, or_iff_right ofDerivation]
  cases serializable <;> cases tagged <;> simp

/-- An item is neither an import nor a type with fields or cases, and provides nothing of
serialization. -/
structure Beside (item : Node) : Prop where
  /-- It is no import. -/
  noUse : item.isUse = false
  /-- It is no such type. -/
  noType : item.isType = false
  /-- It provides no trait of serialization. -/
  provides : ∀ trait ∈ serializationTraits, trait ∉ item.provides

theorem beside_of_provides {item : Node} (noUse : item.isUse = false) (noType : item.isType = false)
    (provides : item.provides = []) : Beside item :=
  ⟨noUse, noType, fun trait _ => by rw [provides]; exact List.not_mem_nil⟩

theorem beside_typeAlias (doc name : String) (generics : Option Node) (type : Node) :
    Beside (typeAlias doc name generics type) :=
  beside_of_provides rfl rfl rfl

theorem beside_methodsOf (generics : Option Node) (type : Node) (methods : List Node) :
    Beside (methodsOf generics type methods) :=
  beside_of_provides rfl rfl rfl

/-- The traits of edits are none of serialization. -/
theorem not_mem_setterOps (owner : String) {name : String} (h : name.toList.getLast? = some 's') :
    owner ++ name ∉ serializationTraits := by
  intro member
  have last : (owner ++ name).toList.getLast? = some 's' := by
    rw [String.toList_append, List.getLast?_append, h]
    rfl
  obtain same | same : owner ++ name = "Serialize" ∨ owner ++ name = "Deserialize" := by
    simpa [serializationTraits] using member
  all_goals
    rw [same] at last
    exact absurd last (by decide)

@[simp] theorem firstName?_applyTo (parameters : TypeParameters) (name : String) :
    (parameters.applyTo name).firstName? = some name := by
  unfold TypeParameters.applyTo
  split <;> rfl

theorem beside_setterItems {doc trait : String} (declared declaredOwned : Option Node)
    (parameters : TypeParameters) (setters : Node) (methods : List SetterMethod)
    (other : trait ∉ serializationTraits) :
    ∀ item ∈ SetterMethod.items doc trait declared declaredOwned (parameters.applyTo trait) setters
      methods, Beside item := by
  have implemented : (traitFor declaredOwned (parameters.applyTo trait) setters
      (methods.map fun m => m.item (some (block [] [m.body])))).provides = [trait] := by
    simp [Node.provides, traitFor, attributes, implemented?]
  refine List.forall_mem_cons.2 ⟨beside_of_provides rfl rfl rfl, List.forall_mem_singleton.2 ?_⟩
  refine ⟨rfl, rfl, fun name known => ?_⟩
  rw [implemented, List.mem_singleton]
  rintro rfl
  exact other known

/-! ### Files with one type -/

section Items

variable {owner reader : String} {types : List TypeRef} {own others : List Node} {type : Node}
variable {libraries paths : List (List String)} {serializable : Bool}

/-- The imports of a file: from libraries, of the traits, of generated items and of its own. -/
def imported (libraries : List (List String)) (serializable : Bool) (paths : List (List String))
    (own : List Node) : List Node :=
  libraries.map importing ++ (serializationImport serializable ++ (paths.map importing ++ own))

/-- An import is of one path, or of the traits where there is serialization. -/
theorem cases_of_mem_imported (ownOk : typeImports reader types = .ok own) {node : Node}
    (h : node ∈ imported libraries serializable paths own) :
    (∃ rooted names, node = useItem rooted (importSteps names)) ∨
      serializable = true ∧ node = traitImport := by
  simp only [imported, List.mem_append, List.mem_map] at h
  obtain ⟨names, -, rfl⟩ | member | ⟨names, -, rfl⟩ | member := h
  · exact .inl ⟨_, _, rfl⟩
  · cases serializable with
    | false => cases member
    | true => exact .inr ⟨rfl, List.mem_singleton.1 member⟩
  · exact .inl ⟨_, _, rfl⟩
  · exact .inl (exists_of_mem_typeImports ownOk member)

theorem exists_use_of_mem_imported (ownOk : typeImports reader types = .ok own) {node : Node}
    (h : node ∈ imported libraries serializable paths own) :
    ∃ rooted tree, node = useItem rooted tree := by
  obtain ⟨rooted, names, rfl⟩ | ⟨-, rfl⟩ := cases_of_mem_imported ownOk h
  · exact ⟨_, _, rfl⟩
  · exact ⟨_, _, rfl⟩

theorem traitImport_mem_iff (ownOk : typeImports reader types = .ok own)
    (isType : type.isType = true) (beside : ∀ item ∈ others, Beside item) :
    traitImport ∈ imported libraries serializable paths own ++ type :: others ↔
      serializable = true := by
  constructor
  · intro member
    obtain member | rfl | member := by simpa only [List.mem_append, List.mem_cons] using member
    · obtain ⟨rooted, names, same⟩ | ⟨serialized, -⟩ := cases_of_mem_imported ownOk member
      · exact absurd same.symm (importSteps_ne_traitImport rooted names)
      · exact serialized
    · cases isType
    · cases (beside _ member).noUse
  · rintro rfl
    exact List.mem_append_left _ (List.mem_append_right _ (List.mem_append_left _
      (List.mem_singleton_self traitImport)))

/-- Only the type provides traits of serialization. -/
theorem mem_provides_iff (ownOk : typeImports reader types = .ok own)
    (beside : ∀ item ∈ others, Beside item) {trait : String} (h : trait ∈ serializationTraits) :
    trait ∈ (imported libraries serializable paths own ++ type :: others).flatMap Node.provides ↔
      trait ∈ type.provides := by
  have before : (imported libraries serializable paths own).flatMap Node.provides = [] := by
    rw [List.flatMap_eq_nil_iff]
    intro node member
    obtain ⟨rooted, tree, rfl⟩ := exists_use_of_mem_imported ownOk member
    rfl
  have after_ : trait ∉ others.flatMap Node.provides := by
    intro member
    obtain ⟨item, inside, provided⟩ := List.mem_flatMap.1 member
    exact (beside item inside).provides trait h provided
  rw [List.flatMap_append, before, List.nil_append, List.flatMap_cons, List.mem_append,
    or_iff_left after_]

theorem filter_isType_eq (ownOk : typeImports reader types = .ok own)
    (isType : type.isType = true) (beside : ∀ item ∈ others, Beside item) :
    (imported libraries serializable paths own ++ type :: others).filter Node.isType = [type] := by
  have before : (imported libraries serializable paths own).filter Node.isType = [] := by
    rw [List.filter_eq_nil_iff]
    intro node member
    obtain ⟨rooted, tree, rfl⟩ := exists_use_of_mem_imported ownOk member
    exact Bool.false_ne_true
  have after_ : others.filter Node.isType = [] := by
    rw [List.filter_eq_nil_iff]
    intro item inside
    rw [(beside item inside).noType]
    exact Bool.false_ne_true
  rw [List.filter_append, before, List.nil_append, List.filter_cons_of_pos isType, after_]

/-- A file with one type, behind imports and before items beside it. -/
theorem serializesAs_of_items (ownOk : typeImports reader types = .ok own) {doc : List String}
    {tagged : Bool} {fields : List Field} {file : File}
    (items : file.items = imported libraries serializable paths own ++ type :: others)
    (isType : type.isType = true) (noTrait : type.implemented? = none)
    (attributesAre : type.attributes = typeAttributes doc serializable tagged)
    (fieldsAre : List.Forall₂ (FieldAttributes owner serializable) fields
      (type.members.map attributes))
    (beside : ∀ item ∈ others, Beside item) :
    SerializesAs owner serializable tagged fields file := by
  have derives (trait : String) (known : trait ∈ serializationTraits) :
      trait ∈ type.attributes.flatMap derived ↔ serializable = true := by
    rw [attributesAre]
    exact mem_derived_typeAttributes_iff doc serializable tagged known
  refine ⟨?_, fun trait known => ?_, type, ?_, derives, ?_, fieldsAre⟩
  · rw [items]
    exact traitImport_mem_iff ownOk isType beside
  · rw [File.provides, items, mem_provides_iff ownOk beside known, Node.provides, noTrait,
      Option.toList_none, List.append_nil]
    exact derives trait known
  · rw [items]
    exact filter_isType_eq ownOk isType beside
  · rw [attributesAre]
    exact tagAttribute_mem_typeAttributes_iff doc serializable tagged

end Items

/-! ### Records -/

namespace Lens

theorem beside_setterOps {code : RecordCode} {flavor : Flavor} {setters : Node} {ops : List Node}
    (h : setterOps code flavor setters = .ok ops) : ∀ item ∈ ops, Beside item := by
  obtain ⟨trait, traitOk, h⟩ := Outcome.bind_eq_ok_iff.1 h
  rw [← Outcome.pure_eq_ok_iff.1 h]
  refine beside_setterItems _ _ _ _ _ ?_
  rw [legal_eq_ok traitOk]
  cases flavor <;> exact not_mem_setterOps _ (by decide)

theorem attributes_members_struct (record : Record) (code : RecordCode) :
    (struct record code).members.map attributes = code.fields.map (·.attributes) := by
  have each (field : FieldCode) :
      (behind field.attributes (publicField field.name field.type)).attributes =
        field.attributes := attributes_behind rfl
  rw [struct, members_behind]
  show (code.fields.map _).map attributes = _
  rw [List.map_map]
  exact List.map_congr_left fun field _ => each field

theorem beside_items {code : RecordCode} {ops asyncOps : List Node} (record : Record)
    (simple : List (List Node)) (opsOk : setterOps code .direct (code.setters .direct) = .ok ops)
    (asyncOpsOk : setterOps code .asynchronous (code.setters .asynchronous) = .ok asyncOps) :
    ∀ item ∈ (code.items record simple ops asyncOps).tail, Beside item := by
  simp only [RecordCode.items, List.cons_append, List.tail_cons, List.nil_append,
    List.forall_mem_cons, List.forall_mem_append]
  exact ⟨beside_typeAlias _ _ _ _, beside_typeAlias _ _ _ _, beside_methodsOf _ _ _,
    beside_methodsOf _ _ _, beside_setterOps opsOk, beside_setterOps asyncOpsOk⟩

/-- The struct of a record and the imports of its file follow the record's declaration. -/
theorem serializesAs_of_file {record : Record} {around : Surroundings} {file : File}
    (h : Lens.file record around = .ok file) :
    SerializesAs record.name record.serializable false record.fields file := by
  obtain ⟨code, paths, own, simple, ops, asyncOps, codeOk, ⟨types, ownOk⟩, -, opsOk, asyncOpsOk,
    itemsAre⟩ := parts_of_file h
  have reads := reads_of_ofRecord codeOk
  have items : file.items =
      imported [["std", "future", "Future"]] record.serializable paths own ++
        struct record code :: (code.items record simple ops asyncOps).tail := by
    rw [itemsAre, imported]
    simp only [List.append_assoc]
    rfl
  have attributesAre : (struct record code).attributes =
      typeAttributes record.doc record.serializable false := by
    rw [struct, attributes_behind rfl, typeAttributes, Bool.and_false]
    exact (List.append_nil _).symm
  refine serializesAs_of_items ownOk items ?_ ?_ attributesAre ?_
    (beside_items record simple opsOk asyncOpsOk)
  · rw [struct, isType_behind]
    rfl
  · exact implemented?_behind _ rfl
  · rw [attributes_members_struct]
    exact fieldAttributes_of_ofFields reads.fields

end Lens

/-! ### Variant sets -/

namespace Prism

theorem beside_setterOps {set : VariantSet} {code : SetCode} {flavor : Flavor} {setters : Node}
    {ops : List Node} (h : setterOps set code flavor setters = .ok ops) :
    ∀ item ∈ ops, Beside item := by
  obtain ⟨shared, -, h⟩ := Outcome.bind_eq_ok_iff.1 h
  obtain ⟨variants, -, h⟩ := Outcome.bind_eq_ok_iff.1 h
  obtain ⟨trait, traitOk, h⟩ := Outcome.bind_eq_ok_iff.1 h
  rw [← Outcome.pure_eq_ok_iff.1 h]
  refine beside_setterItems _ _ _ _ _ ?_
  rw [legal_eq_ok traitOk]
  cases flavor <;> exact not_mem_setterOps _ (by decide)

theorem beside_baseGetters (code : SetCode) : ∀ item ∈ baseGetters code, Beside item := by
  unfold baseGetters
  split
  · exact List.forall_mem_nil _
  · exact List.forall_mem_singleton.2 (beside_of_provides rfl rfl rfl)

theorem beside_items {set : VariantSet} {code : SetCode} {ops asyncOps : List Node}
    (opsOk : setterOps set code .direct (code.setters .direct) = .ok ops)
    (asyncOpsOk : setterOps set code .asynchronous (code.setters .asynchronous) = .ok asyncOps) :
    ∀ item ∈ (code.items set ops asyncOps).tail, Beside item := by
  simp only [SetCode.items, List.cons_append, List.tail_cons, List.nil_append,
    List.forall_mem_cons, List.forall_mem_append]
  exact ⟨beside_typeAlias _ _ _ _, beside_typeAlias _ _ _ _, beside_baseGetters code,
    beside_methodsOf _ _ _, beside_methodsOf _ _ _, beside_setterOps opsOk,
    beside_setterOps asyncOpsOk⟩

theorem attributes_members_enumerationItem (set : VariantSet) (code : SetCode) :
    (enumerationItem set code).members.map attributes =
      code.variants.flatMap fun variant => variant.fields.map (·.attributes) := by
  have each (field : FieldCode) :
      (behind field.attributes (typed (named field.name) field.type)).attributes =
        field.attributes := attributes_behind rfl
  rw [enumerationItem, members_behind]
  show ((code.variants.map _).flatMap caseMembers).map attributes = _
  rw [List.flatMap_map, List.map_flatMap]
  refine List.flatMap_congr fun variant _ => ?_
  rw [caseMembers_behind]
  show (variant.fields.map _).map attributes = _
  rw [List.map_map]
  exact List.map_congr_left fun field _ => each field

/-- The enumeration of a variant set and the imports of its file follow the set's declaration. -/
theorem serializesAs_of_file {set : VariantSet} {around : Surroundings} {file : File}
    (h : Prism.file set around = .ok file) :
    SerializesAs set.name set.serializable (set.serialization == .polymorphic)
      (set.variants.flatMap (·.fields)) file := by
  obtain ⟨code, paths, own, ops, asyncOps, setCode, ⟨types, ownOk⟩, opsOk, asyncOpsOk, itemsAre⟩ :=
    parts_of_file h
  have reads := reads_of_ofSet setCode
  have items : file.items = imported [] set.serializable paths own ++
      enumerationItem set code :: (code.items set ops asyncOps).tail := by
    rw [itemsAre, imported]
    simp only [List.append_assoc]
    rfl
  have attributesAre : (enumerationItem set code).attributes =
      typeAttributes set.doc set.serializable (set.serialization == .polymorphic) :=
    attributes_behind rfl
  refine serializesAs_of_items ownOk items ?_ ?_ attributesAre ?_ (beside_items opsOk asyncOpsOk)
  · rw [enumerationItem, isType_behind]
    rfl
  · exact implemented?_behind _ rfl
  · rw [attributes_members_enumerationItem]
    exact List.rel_flatMap reads.variants fun _ _ read => fieldAttributes_of_ofFields read.fields

end Prism

end Optics

/-! ## Keys -/

namespace Keys

/-- The keys of a file are serialized as their group says. -/
structure SerializesAs (group : KeyGroup) (file : File) : Prop where
  /-- The traits and what they work with are imported. -/
  imports : serializationImport ∈ file.items ↔ group.serializable = true
  /-- Both traits are implemented. -/
  implements : ∀ trait ∈ serializationTraits,
    (∃ item ∈ file.items, item.implemented? = some trait) ↔ group.serializable = true
  /-- Without serialization nothing in the file has to do with it. -/
  silent : group.serializable = false → file.Silent

theorem not_silent_serializationImport : ¬ serializationImport.Silent := fun silent =>
  ((silent_iff _).1 silent).1 "serde" List.mem_cons_self List.mem_cons_self

theorem exists_implemented (keyType : String) {trait : String} (h : trait ∈ serializationTraits) :
    ∃ item ∈ serializationItems keyType, item.implemented? = some trait := by
  obtain rfl | rfl : trait = "Serialize" ∨ trait = "Deserialize" := by
    simpa [serializationTraits] using h
  · exact ⟨_, List.mem_cons_self, rfl⟩
  · exact ⟨_, List.mem_cons_of_mem _ List.mem_cons_self, rfl⟩

/-- A trait that an item implements is provided by the file. -/
theorem mem_provides_of_implemented {file : File} {item : Node} {trait : String}
    (member : item ∈ file.items) (h : item.implemented? = some trait) : trait ∈ file.provides := by
  refine List.mem_flatMap.2 ⟨item, member, List.mem_append_right _ ?_⟩
  rw [h]
  exact List.mem_singleton_self trait

/-- The file of a key group follows its declaration. -/
theorem serializesAs_of_file {group : KeyGroup} {place : Place} {file : File}
    (h : Keys.file group place = .ok file) : SerializesAs group file := by
  cases serializable : group.serializable with
  | false =>
    have silent := silent_file h serializable
    refine ⟨?_, fun trait known => ?_, fun _ => silent⟩
    · rw [serializable]
      simpa using fun member => not_silent_serializationImport (silent.2 _ member)
    · rw [serializable]
      simpa using fun item member implemented =>
        silent.not_mem_provides known (mem_provides_of_implemented member implemented)
  | true =>
    obtain ⟨keyType, -, h⟩ := Outcome.bind_eq_ok_iff.1 h
    obtain ⟨indexType, -, h⟩ := Outcome.bind_eq_ok_iff.1 h
    rw [← Outcome.pure_eq_ok_iff.1 h, serializable]
    refine ⟨⟨fun _ => serializable, fun _ => List.mem_cons_self⟩,
      fun trait known => ⟨fun _ => serializable, fun _ => ?_⟩,
      fun plain => absurd (plain.symm.trans serializable) Bool.false_ne_true⟩
    obtain ⟨item, member, implemented⟩ := exists_implemented keyType known
    exact ⟨item, List.mem_append_right _ member, implemented⟩

end Keys

/-! ## Jobs -/

namespace Plan

/-- The file of a job has to do with serialization what the job's declaration in the request says.
The files without declaration have nothing to do with it. -/
def SerializesAs (request : Request) (job : Job) (file : File) : Prop :=
  match job.task with
  | .lens index record => request.records[index]? = some record ∧
    Optics.SerializesAs record.name record.serializable false record.fields file
  | .prism index set => request.variantSets[index]? = some set ∧
    Optics.SerializesAs set.name set.serializable (set.serialization == .polymorphic)
      (set.variants.flatMap (·.fields)) file
  | .keys index group => request.keys[index]? = some group ∧ Keys.SerializesAs group file
  | _ => file.Silent

theorem serializesAs_of_code {request : Request} {job : Job} {file : File}
    (numbered : Numbered request job.task) (h : job.code = .ok file) :
    SerializesAs request job file := by
  rcases job with ⟨task, place⟩
  cases task with
  | productMarker =>
    cases h
    exact Family.Product.silent_marker
  | product dimension => exact Family.Product.silent_file h
  | arithmetic dimension => exact Family.Arithmetic.silent_file h
  | sumMarker =>
    cases h
    exact Family.Sum.silent_marker
  | sum dimension => exact Family.Sum.silent_file h
  | duality dimension => exact Family.Duality.silent_file h
  | evolvingProduct dimension => exact Family.Evolution.silent_product h
  | evolvingSum dimension => exact Family.Evolution.silent_sum h
  | keys index group => exact ⟨numbered, Keys.serializesAs_of_file h⟩
  | setters =>
    cases h
    exact Optics.Support.silent_file
  | lens index record => exact ⟨numbered, Optics.Lens.serializesAs_of_file h⟩
  | prism index set => exact ⟨numbered, Optics.Prism.serializesAs_of_file h⟩

/-- A file that provides serialization has a declaration that asks for it. -/
theorem SerializesAs.serializes {request : Request} {job : Job} {file : File}
    (h : SerializesAs request job file) {trait : String} (known : trait ∈ serializationTraits)
    (provided : trait ∈ file.provides) : request.serializes = true := by
  rcases job with ⟨task, place⟩
  have silent (quiet : file.Silent) : request.serializes = true :=
    absurd provided (quiet.not_mem_provides known)
  cases task with
  | keys index group =>
    obtain ⟨found, keys⟩ := h
    have serializable : group.serializable = true := by
      cases plain : group.serializable with
      | false => exact absurd provided ((keys.silent plain).not_mem_provides known)
      | true => rfl
    have some_ : request.keys.any (·.serializable) = true :=
      List.any_eq_true.2 ⟨group, List.mem_of_getElem? found, serializable⟩
    rw [Request.serializes, some_, Bool.true_or, Bool.true_or]
  | lens index record =>
    have some_ : request.records.any (·.serializable) = true :=
      List.any_eq_true.2 ⟨record, List.mem_of_getElem? h.1, (h.2.provides trait known).1 provided⟩
    rw [Request.serializes, some_, Bool.or_true, Bool.true_or]
  | prism index set =>
    have some_ : request.variantSets.any (·.serializable) = true :=
      List.any_eq_true.2 ⟨set, List.mem_of_getElem? h.1, (h.2.provides trait known).1 provided⟩
    rw [Request.serializes, some_, Bool.or_true]
  | _ => exact silent h

end Plan

/-! ## Manifests -/

namespace Manifest

open Slotwise.Configuration

/-- The manifest lists what serialization needs: in its text below the heading of the dependencies,
and so in the document that is read from it where the name of the package needs no escape. -/
def ListsSerialization (package : String) : Prop :=
  (∃ before behind, text package true =
    before ++ "[dependencies]\n" ++ serialization ++ "\n" ++ behind) ∧
  (IsPlain package → ∃ document, document? (text package true) = some document ∧
    document.at? ["dependencies", "serde"] = some dependency)

theorem listsSerialization (package : String) : ListsSerialization package := by
  refine ⟨⟨String.join ((head package).dropLast.map (· ++ "\n")),
      String.join (tail.map (· ++ "\n")), ?_⟩,
    fun plain => ⟨_, document?_of_plain plain true, at?_dependency package true⟩⟩
  refine String.toList_injective ?_
  simp [text, head, String.toList_join]

end Manifest

/-! ## From declarations to the manifest -/

namespace CommandLine

open Plan DiskStep

/-- Serialization reaches the manifest. The request of a plan is the one that serialization has been
spread in, and the file of each job has to do with serialization what that request says. Whenever
the file of some job provides it, a run for the plan leaves a manifest that lists what it needs. -/
theorem serialization_listed {request : Request} {plan : Plan}
    (h : Plan.ofRequest request = .ok plan) :
    plan.request = request.propagated ∧
    (∀ job ∈ plan.jobs, ∀ file, job.code = .ok file → Plan.SerializesAs plan.request job file) ∧
    ∀ arguments options package tree, invocation? arguments = some (.run options) →
      options.package = some package → options.dryRun = false → tree.Closed →
      options.plan tree.read = .ok plan → (outcome arguments tree).ending = .success →
      (∃ job ∈ plan.jobs, ∃ file, job.code = .ok file ∧ "Serialize" ∈ file.provides) →
        (outcome arguments tree).tree.read (Manifest.path options.root) =
            .ok (Manifest.text package true) ∧
          Manifest.ListsSerialization package := by
  have planned := planned_of_ofRequest h
  have follows (job : Job) (member : job ∈ plan.jobs) (file : File) (code : job.code = .ok file) :
      Plan.SerializesAs plan.request job file :=
    serializesAs_of_code (planned.mem_jobs_iff.1 member).numbered code
  refine ⟨planned.request_eq, follows, ?_⟩
  rintro arguments options package tree asked named wet closed same success
    ⟨job, member, file, code, provided⟩
  obtain ⟨plan', artifacts, planned', made, written⟩ := exists_steps_of_success asked wet success
  cases same.symm.trans planned'
  have serializes := (follows job member file code).serializes List.mem_cons_self provided
  have manifest := (read_of_steps made named closed written).1
  rw [serializes] at manifest
  exact ⟨manifest, Manifest.listsSerialization package⟩

/-- A record that can be serialized, and one that it refers to. -/
def lineOfPoints : Request :=
  declaring [{ single "Line" (.named "Point") with serializable := true },
    single "Point" (.named "f64")] []

/-- Whether the file of some job with this title provides a trait. -/
def providesFor (trait title : String) (plan : Plan) : Bool :=
  plan.jobs.any fun job => job.task.title == title &&
    match job.code with
    | .ok file => decide (trait ∈ file.provides)
    | .error _ => false

theorem exists_of_providesFor {trait title : String} {plan : Plan}
    (h : providesFor trait title plan = true) :
    ∃ job ∈ plan.jobs, job.task.title = title ∧
      ∃ file, job.code = .ok file ∧ trait ∈ file.provides := by
  obtain ⟨job, member, found⟩ := List.any_eq_true.1 h
  rw [Bool.and_eq_true, beq_iff_eq] at found
  obtain ⟨titled, provides⟩ := found
  split at provides
  · next file code => exact ⟨job, member, titled, file, code, of_decide_eq_true provides⟩
  · cases provides

/-- Its plan. -/
def lineOfPointsPlan : { plan : Plan // Plan.ofRequest lineOfPoints = .ok plan ∧
    providesFor "Serialize" "Point" plan = true } :=
  passing <| by
    simp only [ofRequest, allJobs, Ordered.sortedSet_eq_foldr]
    decide +kernel

/-- A record is serialized for another one's sake, and the manifest lists what it needs. -/
theorem serialization_listed_lineOfPoints :
    ∃ plan, Plan.ofRequest lineOfPoints = .ok plan ∧
      (∃ job ∈ plan.jobs, job.task.title = "Point" ∧ ∃ file, job.code = .ok file ∧
        "Serialize" ∈ file.provides ∧ Plan.SerializesAs plan.request job file) ∧
      ∀ arguments options package tree, invocation? arguments = some (.run options) →
        options.package = some package → options.dryRun = false → tree.Closed →
        options.plan tree.read = .ok plan → (outcome arguments tree).ending = .success →
          (outcome arguments tree).tree.read (Manifest.path options.root) =
            .ok (Manifest.text package true) := by
  obtain ⟨plan, planned, provides⟩ := lineOfPointsPlan
  obtain ⟨job, member, titled, file, code, provided⟩ := exists_of_providesFor provides
  obtain ⟨-, follows, listed⟩ := serialization_listed planned
  refine ⟨plan, planned, ⟨job, member, titled, file, code, provided, follows job member file code⟩,
    ?_⟩
  intro arguments options package tree asked named wet closed same success
  exact (listed arguments options package tree asked named wet closed same success
    ⟨job, member, file, code, provided⟩).1

end CommandLine

end Slotwise
