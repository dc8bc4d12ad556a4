import Slotwise.Proofs.Families
import Slotwise.Proofs.Imports
import Slotwise.Proofs.Subtrees
/-!
# Code without serialization

Serialization comes into code in three ways: by an import from its library, by an attribute that
names the library or derives one of its traits, and by an implementation of such a trait. Code is
silent if none of this stands anywhere in it. All generated files are, besides those of keys,
records and variant sets.
-/

namespace Slotwise

open Code

namespace Code

/-- The word that a token is. -/
def Token.word? : Token → Option String
  | word text => some text
  | _ => none

namespace Node

/-- The traits of serialization. -/
def serializationTraits : List String := ["Serialize", "Deserialize"]

/-- The names that stand for serialization: its library and the traits. -/
def serializationNames : List String := "serde" :: serializationTraits

theorem mem_serializationNames_iff {name : String} :
    name ∈ serializationNames ↔ name = "serde" ∨ name = "Serialize" ∨ name = "Deserialize" := by
  simp [serializationNames, serializationTraits]

/-- The first name of a path. -/
def firstName? : Node → Option String
  | path _ (segment name _ :: _) => some name
  | _ => none

/-- The name of an attribute and the words in its brackets. -/
def words : Node → List String
  | metaList name _ tokens => name.firstName?.toList ++ tokens.filterMap Token.word?
  | metaValue name _ => name.firstName?.toList
  | name => name.firstName?.toList

/-- What a tree relies on by itself: the library of an import, the words of an attribute, the trait
of an implementation. -/
abbrev reliesOn : Node → List String
  | useItem _ (useStep name _) => [name]
  | attr _ content => content.words
  | implementation _ _ _ (some trait) _ _ _ => trait.firstName?.toList
  | _ => []

/-- Nothing in the code has to do with serialization. -/
def Silent (node : Node) : Prop :=
  ∀ inside ∈ node.subtrees, ∀ name ∈ inside.reliesOn, name ∉ serializationNames

theorem silent_iff (node : Node) :
    node.Silent ↔ (∀ name ∈ node.reliesOn, name ∉ serializationNames) ∧
      ∀ part ∈ node.parts, part.Silent := by
  simp only [Silent]
  rw [subtrees_eq]
  simp only [List.forall_mem_cons, List.forall_mem_flatMap]

/-- What relies on nothing by itself is silent if its parts are. -/
theorem silent_iff_of_reliesOn {node : Node} (h : node.reliesOn = []) :
    node.Silent ↔ ∀ part ∈ node.parts, part.Silent := by
  rw [silent_iff, h]
  exact and_iff_right (List.forall_mem_nil _)

@[simp] theorem silent_ite_iff {condition : Prop} [Decidable condition] (node other : Node) :
    (if condition then node else other).Silent ↔
      if condition then node.Silent else other.Silent := by
  split <;> rfl

/-! ### The forms of generated code -/

@[simp] theorem firstName?_named (name : String) : (named name).firstName? = some name := rfl

@[simp] theorem firstName?_applied (name : String) (arguments : List Node) :
    (applied name arguments).firstName? = some name := rfl

@[simp] theorem silent_named (name : String) : (named name).Silent := by
  simp [named, silent_iff_of_reliesOn]

@[simp] theorem silent_namedAlong (names : List String) : (namedAlong names).Silent := by
  simp [namedAlong, silent_iff_of_reliesOn]

@[simp] theorem silent_applied_iff (name : String) (arguments : List Node) :
    (applied name arguments).Silent ↔ ∀ argument ∈ arguments, argument.Silent := by
  simp [applied, silent_iff_of_reliesOn]

@[simp] theorem silent_appliedTo (name : String) (arguments : List String) :
    (appliedTo name arguments).Silent := by
  simp [appliedTo]

@[simp] theorem silent_textAttribute_doc (inner : Bool) (text : String) :
    (textAttribute inner "doc" text).Silent := by
  rw [silent_iff]
  simp [textAttribute, silent_iff_of_reliesOn, words, mem_serializationNames_iff]

@[simp] theorem silent_docLine (text : String) : (docLine text).Silent :=
  silent_textAttribute_doc false text

@[simp] theorem silent_fileDoc (text : String) : (fileDoc text).Silent :=
  silent_textAttribute_doc true text

theorem filterMap_word?_listedWords (names : List String) :
    (listedWords names).filterMap Token.word? = names := by
  induction names using listedWords.induct with
  | case1 => rfl
  | case2 word => rfl
  | case3 word rest more ih =>
    rw [listedWords]
    · simp [List.filterMap_cons, Token.word?, ih]
    · exact more

@[simp] theorem words_derivation (traits : List String) :
    (metaList (named "derive") .round (listedWords traits)).words = "derive" :: traits := by
  rw [words, filterMap_word?_listedWords]
  rfl

/-- A derivation is of its traits. -/
theorem silent_derivation_iff (traits : List String) :
    (derivation traits).Silent ↔ ∀ trait ∈ traits, trait ∉ serializationNames := by
  rw [silent_iff]
  simp [derivation, silent_iff_of_reliesOn, mem_serializationNames_iff]

@[simp] theorem silent_shared_iff (subject : Node) : (shared subject).Silent ↔ subject.Silent := by
  simp [shared, silent_iff_of_reliesOn]

@[simp] theorem silent_publicField_iff (name : String) (type : Node) :
    (publicField name type).Silent ↔ type.Silent := by
  simp [publicField, isPublic, silent_iff_of_reliesOn]

theorem silent_of_mem_allowingArguments {count : Nat} {node : Node}
    (h : node ∈ allowingArguments count) : node.Silent := by
  unfold allowingArguments at h
  split at h
  · cases List.mem_singleton.1 h
    rw [silent_iff]
    refine ⟨by decide, ?_⟩
    simp [silent_iff_of_reliesOn]
  · cases h

theorem silent_behind_iff (attributes : List Node) (node : Node) :
    (behind attributes node).Silent ↔
      (∀ attribute_ ∈ attributes, attribute_.Silent) ∧ node.Silent := by
  unfold behind
  split
  · next none_ => simp [List.isEmpty_iff.1 none_]
  · simp [silent_iff_of_reliesOn, or_imp, forall_and]

@[simp] theorem silent_functionBound_iff (name : String) (inputs : List Node)
    (output : Option Node) :
    (functionBound name inputs output).Silent ↔
      (∀ input ∈ inputs, input.Silent) ∧ ∀ type ∈ output, type.Silent := by
  simp [functionBound, traitBound, silent_iff_of_reliesOn, or_imp, forall_and]

@[simp] theorem silent_someFunction_iff (name : String) (input output : Node) :
    (someFunction name input output).Silent ↔ input.Silent ∧ output.Silent := by
  simp [someFunction, silent_iff_of_reliesOn]

@[simp] theorem silent_boundWith_iff (trait name : String) (value : Node) :
    (boundWith trait name value).Silent ↔ value.Silent := by
  simp [boundWith, traitBound, silent_iff_of_reliesOn]

@[simp] theorem silent_parameters (names : List String) : (parameters names).Silent := by
  simp [parameters, silent_iff_of_reliesOn]

@[simp] theorem silent_binding (name : String) : (binding name).Silent := by
  simp [binding, silent_iff_of_reliesOn]

@[simp] theorem silent_input_iff (name : String) (type : Node) :
    (input name type).Silent ↔ type.Silent := by
  simp [input, silent_iff_of_reliesOn]

@[simp] theorem silent_fieldIs_iff (name : String) (value : Node) :
    (fieldIs name value).Silent ↔ value.Silent := by
  simp [fieldIs, silent_iff_of_reliesOn]

@[simp] theorem silent_self : self.Silent :=
  silent_named "self"

@[simp] theorem silent_letIs_iff (name : String) (value : Node) :
    (letIs name value).Silent ↔ value.Silent := by
  simp [letIs, silent_iff_of_reliesOn]

@[simp] theorem silent_isPublic_iff (node : Node) : (isPublic node).Silent ↔ node.Silent := by
  simp [isPublic, silent_iff_of_reliesOn]

@[simp] theorem silent_publicFunction_iff (name : String) (generics : Option Node)
    (inputs : List Node) (comma : Bool) (output : Option Node) (body : List Node) :
    (publicFunction name generics inputs comma output body).Silent ↔
      (∀ binders ∈ generics, binders.Silent) ∧ (∀ input ∈ inputs, input.Silent) ∧
        (∀ type ∈ output, type.Silent) ∧ ∀ statement ∈ body, statement.Silent := by
  simp [publicFunction, silent_iff_of_reliesOn, or_imp, forall_and]

@[simp] theorem silent_methodsOf_iff (generics : Option Node) (type : Node) (items : List Node) :
    (methodsOf generics type items).Silent ↔
      (∀ binders ∈ generics, binders.Silent) ∧ type.Silent ∧ ∀ item ∈ items, item.Silent := by
  simp [methodsOf, silent_iff_of_reliesOn, or_imp, forall_and]

/-- An implementation is of its trait. -/
theorem silent_traitFor_iff (generics : Option Node) (trait type : Node) (items : List Node) :
    (traitFor generics trait type items).Silent ↔
      (∀ name ∈ trait.firstName?, name ∉ serializationNames) ∧
        (∀ binders ∈ generics, binders.Silent) ∧ trait.Silent ∧ type.Silent ∧
          ∀ item ∈ items, item.Silent := by
  rw [silent_iff]
  simp [traitFor, or_imp, forall_and]

theorem silent_importing {path : List String} {first : String} (starts : path.head? = some first)
    (other : first ∉ serializationNames) : (importing path).Silent := by
  have steps (names : List String) : (importSteps names).Silent := by
    induction names using importSteps.induct with
    | case1 => simp [importSteps, silent_iff_of_reliesOn]
    | case2 name => simp [importSteps, silent_iff_of_reliesOn]
    | case3 name rest more ih => simp [importSteps, silent_iff_of_reliesOn, ih]
  obtain ⟨rest, rfl⟩ := List.head?_eq_some_iff.1 starts
  rw [silent_iff]
  constructor
  · cases rest with
    | nil => simpa [importing, importSteps] using other
    | cons name rest => simpa [importing, importSteps] using other
  · simpa [importing] using steps (first :: rest)

/-- The standard library is another one. -/
@[simp] theorem silent_importing_std (names : List String) : (importing ("std" :: names)).Silent :=
  silent_importing List.head?_cons (by simp [mem_serializationNames_iff])

end Node

/-- Nothing in the file has to do with serialization. -/
def File.Silent (file : File) : Prop :=
  (∀ doc ∈ file.attributes, doc.Silent) ∧ ∀ item ∈ file.items, item.Silent

end Code

open Code.Node Naming

/-- Imports of generated items start at the root of the crate. -/
theorem silent_of_ofFileItem {place : Place} {module item : String} {path : List String}
    (h : ItemPath.ofFileItem place module item = .ok path) : (importing path).Silent := by
  obtain ⟨_, rooted, result⟩ := Outcome.bind_eq_ok_iff.1 h
  obtain ⟨names, -, root⟩ := Outcome.bind_eq_ok_iff.1 rooted
  rw [← Outcome.pure_eq_ok_iff.1 result, ← Outcome.pure_eq_ok_iff.1 root]
  exact silent_importing List.head?_cons (by simp [mem_serializationNames_iff])

namespace Family

/-! ## Products -/

namespace Product

@[simp] theorem silent_type (dimension : Nat) (slots : List String) :
    (type dimension slots).Silent :=
  silent_appliedTo _ _

@[simp] theorem silent_value_iff (dimension : Nat) (component : Nat → Node) :
    (value dimension component).Silent ↔ ∀ slot ∈ slotsDown dimension, (component slot).Silent := by
  simp [-mem_slotsDown, value, silent_iff_of_reliesOn]

@[simp] theorem silent_valueOfFactors (dimension : Nat) : (valueOfFactors dimension).Silent := by
  simp [valueOfFactors, silent_iff_of_reliesOn]

theorem silent_marker : marker.Silent := by
  simp [marker, File.Silent, silent_iff_of_reliesOn]

theorem silent_struct (dimension : Nat) : (struct dimension).Silent := by
  simp [-mem_slotsDown, struct, silent_iff_of_reliesOn, silent_derivation_iff,
    mem_serializationNames_iff]

theorem silent_maker (dimension : Nat) : (maker dimension).Silent := by
  refine (silent_behind_iff _ _).2 ⟨?_, by simp [-mem_slotsDown]⟩
  exact List.forall_mem_cons.2 ⟨silent_docLine _, fun _ => silent_of_mem_allowingArguments⟩

theorem silent_mapAll (dimension : Nat) : (mapAll dimension).Silent := by
  refine (silent_behind_iff _ _).2
    ⟨?_, by simp [-mem_slotsDown, silent_iff_of_reliesOn]⟩
  exact List.forall_mem_cons.2 ⟨silent_docLine _, fun _ => silent_of_mem_allowingArguments⟩

theorem silent_projectionItem (dimension slot : Nat) : (projectionItem dimension slot).Silent := by
  simp [projectionItem, silent_iff_of_reliesOn]

theorem silent_mapItem (dimension slot : Nat) : (mapItem dimension slot).Silent := by
  simp [-mem_slotsDown, mapItem, silent_iff_of_reliesOn]

theorem silent_asRefs (dimension : Nat) : (asRefs dimension).Silent := by
  simp [asRefs, silent_iff_of_reliesOn]

theorem silent_file {dimension : Nat} {place : Place} {file : File}
    (h : Product.file dimension place = .ok file) : file.Silent := by
  obtain ⟨path, found, result⟩ := Outcome.bind_eq_ok_iff.1 h
  rw [← Outcome.pure_eq_ok_iff.1 result]
  simp [-mem_slotsDown, File.Silent, silent_traitFor_iff, silent_struct, silent_maker,
    silent_mapAll, silent_projectionItem, silent_mapItem, silent_asRefs, silent_of_ofFileItem found,
    mem_serializationNames_iff, or_imp, forall_and]

end Product

/-! ## Sums -/

namespace Sum

@[simp] theorem silent_type (dimension : Nat) (slots : List String) :
    (type dimension slots).Silent :=
  silent_appliedTo _ _

@[simp] theorem silent_inCase_iff (owner : String) (slot : Nat) (payload : Node) :
    (inCase owner slot payload).Silent ↔ payload.Silent := by
  simp [inCase, silent_iff_of_reliesOn]

@[simp] theorem silent_byCase_iff (subject owner : String) (dimension : Nat) (payload : String)
    (body : Nat → Node) :
    (byCase subject owner dimension payload body).Silent ↔
      ∀ slot ∈ slotsDown dimension, (body slot).Silent := by
  simp [-mem_slotsDown, byCase, silent_iff_of_reliesOn]

theorem silent_marker : marker.Silent := by
  simp [marker, File.Silent, silent_iff_of_reliesOn]

theorem silent_enumeration (dimension : Nat) : (enumeration dimension).Silent := by
  simp [-mem_slotsDown, enumeration, silent_iff_of_reliesOn, silent_derivation_iff,
    mem_serializationNames_iff]

theorem silent_caseFunction (dimension : Nat) : (caseFunction dimension).Silent := by
  refine (silent_behind_iff _ _).2
    ⟨?_, by simp [-mem_slotsDown, silent_iff_of_reliesOn]⟩
  exact List.forall_mem_cons.2 ⟨silent_docLine _, fun _ => silent_of_mem_allowingArguments⟩

theorem silent_injectionItem (dimension slot : Nat) : (injectionItem dimension slot).Silent := by
  simp [injectionItem, silent_iff_of_reliesOn]

theorem silent_mapItem (dimension slot : Nat) : (mapItem dimension slot).Silent := by
  simp [-mem_slotsDown, mapItem, silent_iff_of_reliesOn]

theorem silent_file {dimension : Nat} {place : Place} {file : File}
    (h : Sum.file dimension place = .ok file) : file.Silent := by
  obtain ⟨path, found, result⟩ := Outcome.bind_eq_ok_iff.1 h
  rw [← Outcome.pure_eq_ok_iff.1 result]
  simp [-mem_slotsDown, File.Silent, silent_traitFor_iff, silent_enumeration, silent_caseFunction,
    silent_injectionItem, silent_mapItem, silent_of_ofFileItem found, mem_serializationNames_iff,
    or_imp, forall_and]

end Sum

/-! ## Arithmetic -/

namespace Arithmetic

@[simp] theorem silent_sideType (first last : Nat) : (sideType first last).Silent := by
  simp [sideType]

@[simp] theorem silent_sideValue (first last : Nat) : (sideValue first last).Silent := by
  simp [-mem_slotsDown, sideValue, silent_iff_of_reliesOn]

@[simp] theorem silent_sideSlot (side : String) (width slot : Nat) :
    (sideSlot side width slot).Silent := by
  simp [sideSlot, silent_iff_of_reliesOn]

theorem silent_times (dimension first : Nat) : (times dimension first).Silent := by
  simp [-mem_slotsDown, times, silent_iff_of_reliesOn]

theorem silent_split (dimension first : Nat) : (split dimension first).Silent := by
  simp [-mem_slotsDown, split, silent_iff_of_reliesOn]

theorem silent_of_mem_multiplication {dimension first : Nat} {node : Node}
    (h : node ∈ multiplication dimension first) : node.Silent := by
  unfold multiplication at h
  split at h
  · cases List.mem_singleton.1 h
    rw [silent_traitFor_iff]
    simp [silent_iff_of_reliesOn, mem_serializationNames_iff]
  · cases h

theorem silent_file {dimension : Nat} {place : Place} {file : File}
    (h : Arithmetic.file dimension place = .ok file) : file.Silent := by
  obtain ⟨imports, found, result⟩ := Outcome.bind_eq_ok_iff.1 h
  rw [← Outcome.pure_eq_ok_iff.1 result]
  refine ⟨by simp, ?_⟩
  simp only [List.forall_mem_append, List.forall_mem_flatMap, splitPoint, List.forall_mem_cons]
  refine ⟨⟨?_, ?_⟩, fun first _ => ⟨⟨silent_times _ _, silent_split _ _, List.forall_mem_nil _⟩,
    fun _ => silent_of_mem_multiplication⟩⟩
  · intro node member
    split at member
    · cases List.mem_singleton.1 member
      exact silent_importing_std _
    · cases member
  · intro node member
    obtain ⟨width, -, read⟩ := Outcome.mem_of_mapM found member
    obtain ⟨path, found, rfl⟩ := Outcome.map_eq_ok_iff.1 read
    exact silent_of_ofFileItem found

end Arithmetic

/-! ## Duality -/

namespace Duality

theorem silent_functionProduct (name : String) (dimension : Nat) (slots : List String)
    (output : String) : (functionProduct name dimension slots output).Silent := by
  simp [functionProduct]

theorem silent_opposeProduct (dimension : Nat) : (opposeProduct dimension).Silent := by
  simp [opposeProduct, silent_iff_of_reliesOn, silent_functionProduct]

theorem silent_opposeSum (dimension : Nat) : (opposeSum dimension).Silent := by
  simp [opposeSum, silent_iff_of_reliesOn, silent_functionProduct, or_imp, forall_and]
  rintro clone slot - - - rfl
  simp [silent_iff_of_reliesOn]

theorem silent_measure (dimension : Nat) : (measure dimension).Silent := by
  simp [measure, silent_iff_of_reliesOn, silent_functionProduct]

theorem silent_measureUniform (dimension : Nat) : (measureUniform dimension).Silent := by
  simp [-mem_slotsDown, measureUniform, silent_iff_of_reliesOn]

theorem silent_file {dimension : Nat} {products sums : Place} {file : File}
    (h : Duality.file dimension products sums = .ok file) : file.Silent := by
  obtain ⟨productPath, product, h⟩ := Outcome.bind_eq_ok_iff.1 h
  obtain ⟨sumPath, sum, h⟩ := Outcome.bind_eq_ok_iff.1 h
  obtain ⟨casePath, case_, h⟩ := Outcome.bind_eq_ok_iff.1 h
  obtain ⟨injectionPaths, injections, h⟩ := Outcome.bind_eq_ok_iff.1 h
  rw [← Outcome.pure_eq_ok_iff.1 h]
  refine ⟨by simp, ?_⟩
  simp only [List.forall_mem_append, List.forall_mem_cons, List.forall_mem_map]
  refine ⟨⟨⟨silent_importing_std _, silent_of_ofFileItem product, silent_of_ofFileItem sum,
    silent_of_ofFileItem case_, List.forall_mem_nil _⟩, ?_⟩, silent_opposeProduct _,
    silent_opposeSum _, silent_measure _, silent_measureUniform _, List.forall_mem_nil _⟩
  intro path member
  obtain ⟨slot, -, found⟩ := Outcome.mem_of_mapM injections member
  exact silent_of_ofFileItem found

end Duality

/-! ## Evolution -/

namespace Evolution

theorem silent_evolve_iff (name subject owner : String) (dimension : Nat) (body : Node) :
    (evolve name subject owner dimension body).Silent ↔ body.Silent := by
  simp [-mem_slotsDown, evolve, silent_iff_of_reliesOn, evolvers, evolvedClause]

theorem silent_await_iff (name subject owner : String) (dimension : Nat) (body : List Node) :
    (await name subject owner dimension body).Silent ↔ ∀ statement ∈ body, statement.Silent := by
  simp [-mem_slotsDown, await, silent_iff_of_reliesOn, outputs, futureClause, traitBound]

theorem silent_product {dimension : Nat} {products : Place} {file : File}
    (h : Evolution.productFile dimension products = .ok file) : file.Silent := by
  obtain ⟨path, found, result⟩ := Outcome.bind_eq_ok_iff.1 h
  rw [← Outcome.pure_eq_ok_iff.1 result]
  simp [-mem_slotsDown, File.Silent, silent_of_ofFileItem found, silent_iff_of_reliesOn,
    silent_evolve_iff, silent_await_iff, evolved, or_imp, forall_and]

theorem silent_sum {dimension : Nat} {products sums : Place} {file : File}
    (h : Evolution.sumFile dimension products sums = .ok file) : file.Silent := by
  obtain ⟨productPath, product, h⟩ := Outcome.bind_eq_ok_iff.1 h
  obtain ⟨sumPath, sum, h⟩ := Outcome.bind_eq_ok_iff.1 h
  rw [← Outcome.pure_eq_ok_iff.1 h]
  simp [File.Silent, silent_of_ofFileItem product, silent_of_ofFileItem sum,
    silent_iff_of_reliesOn, silent_evolve_iff, silent_await_iff, evolved]

end Evolution

end Family

/-! ## Setters -/

namespace Optics.Support

theorem silent_aliasOf_iff (doc name : String) (type : Node) :
    (aliasOf doc name type).Silent ↔ type.Silent := by
  simp [aliasOf, silent_iff_of_reliesOn]

theorem silent_types : ∀ item ∈ types, item.Silent := by
  simp [types, silent_aliasOf_iff, boxedTrait, silent_iff_of_reliesOn, slot, futureOf]

theorem silent_identities : ∀ item ∈ identities, item.Silent := by
  simp [identities, silent_iff_of_reliesOn, ownedSlot, slot, setterOf, asyncSetterOf,
    futureOf, boxed, pinned]

theorem silent_compositions : ∀ item ∈ compositions, item.Silent := by
  simp [compositions, silent_iff_of_reliesOn, ownedSlot, slot, setterOf, asyncSetterOf,
    futureOf, boxed, pinned]

theorem silent_passing : ∀ item ∈ passing, item.Silent := by
  simp [passing, silent_iff_of_reliesOn, slot]

theorem silent_file : file.Silent := by
  refine ⟨by simp [file], ?_⟩
  simp only [file, List.forall_mem_append, List.forall_mem_cons]
  exact ⟨⟨⟨⟨⟨silent_importing_std _, silent_importing_std _, List.forall_mem_nil _⟩, silent_types⟩,
    silent_identities⟩, silent_compositions⟩, silent_passing⟩

end Optics.Support

/-! ## Keys -/

namespace Keys

theorem silent_enumerationItem (stem keyType : String) (count : Nat) :
    (enumerationItem stem keyType count).Silent := by
  simp [enumerationItem, silent_iff_of_reliesOn, silent_derivation_iff,
    mem_serializationNames_iff, or_imp, forall_and]

theorem silent_nameOf (place : Place) (keyType : String) (count : Nat) :
    (nameOf place keyType count).Silent := by
  simp [nameOf, silent_iff_of_reliesOn, nameLiteral, or_imp, forall_and]

theorem silent_ofName (place : Place) (keyType : String) (count : Nat) :
    (ofName place keyType count).Silent := by
  simp [ofName, silent_iff_of_reliesOn, nameLiteral, or_imp, forall_and]

theorem silent_indexItems (keyType : String) (count : Nat) :
    ∀ item ∈ indexItems keyType count, item.Silent := by
  simp [indexItems, silent_iff_of_reliesOn, or_imp, forall_and]

theorem silent_file {group : KeyGroup} {place : Place} {file : File}
    (h : Keys.file group place = .ok file) (plain : group.serializable = false) : file.Silent := by
  obtain ⟨keyType, -, h⟩ := Outcome.bind_eq_ok_iff.1 h
  obtain ⟨indexType, -, h⟩ := Outcome.bind_eq_ok_iff.1 h
  rw [← Outcome.pure_eq_ok_iff.1 h, plain]
  simpa [File.Silent, silent_enumerationItem, silent_nameOf, silent_ofName, silent_iff_of_reliesOn] using silent_indexItems keyType group.count

end Keys

end Slotwise
