import Slotwise.Artifact
import Slotwise.Proofs.Order
import Slotwise.Proofs.Plan
import Slotwise.Proofs.Rendering
/-!
# Imports of generated files

Generated files import items of other generated files by their paths from the root of the crate.
Every such path leads to a public item of a file that the same plan generates below the same source
root, and every type or marking trait that was not selected itself is in the plan because another
file imports it.

What a file imports is first stated as a list of jobs with items (`Job.imports`). The file's code
holds exactly these imports (`Job.hasImports_of_code`), and the plan holds those jobs
(`Includes.target`).
-/

namespace Slotwise

open Code Naming

/-! ## Items of files -/

namespace Code.Node

/-- The name that an item defines. -/
def itemName? : Node → Option String
  | attributed _ item => item.itemName?
  | visible _ item => item.itemName?
  | unitStruct name _ _ => some name
  | fieldStruct _ name _ _ _ _ => some name
  | tupleStruct name _ _ _ _ => some name
  | enumeration name _ _ _ _ => some name
  | function _ name _ _ _ _ _ _ => some name
  | traitItem _ name _ _ _ _ => some name
  | typeAlias name _ _ _ _ => some name
  | constItem _ name _ _ => some name
  | _ => none

/-- The name that an item defines for everyone. -/
def publicName? : Node → Option String
  | attributed _ item => item.publicName?
  | visible [.word "pub"] item => item.itemName?
  | _ => none

/-- Whether an item is an import. -/
def isUse : Node → Bool
  | attributed _ item => item.isUse
  | visible _ item => item.isUse
  | useItem _ _ => true
  | _ => false

/-- An import from the standard library or from the library for serialization. -/
def IsOutside (node : Node) : Prop :=
  ∃ library ∈ ["std", "serde"], ∃ below, node = useItem false (useStep library below)

@[simp] theorem isUse_behind (attributes : List Node) (node : Node) :
    (behind attributes node).isUse = node.isUse := by
  unfold behind
  split <;> simp [isUse]

@[simp] theorem publicName?_behind (attributes : List Node) (node : Node) :
    (behind attributes node).publicName? = node.publicName? := by
  unfold behind
  split <;> simp [publicName?]

end Code.Node

/-! ## Paths without arguments -/

namespace Code

/-- A path without arguments is a sequence of words. -/
theorem Grammar.plainSegments_eq {bound : Nat} {tokens rest : List Token} {segments : List Node}
    (read : plainSegments bound tokens = some (segments, rest)) :
    ∃ first names, segments = (first :: names).map (Node.segment · none) := by
  induction bound generalizing tokens rest segments with
  | zero => cases read
  | succ bound ih =>
    have steps : plainSegments (bound + 1) tokens =
        (if Reader.startsPathWord tokens = true then do
          let name ← Reader.anyWord
          if ← Reader.sign? "::" then
            let rest ← plainSegments bound
            return .segment name none :: rest
          else return [.segment name none]
        else failure : Reader (List Node)) tokens := rfl
    rw [steps] at read
    split at read
    · obtain ⟨⟨name, afterName⟩, -, read⟩ := Option.bind_eq_some_iff.1 read
      obtain ⟨⟨colons, afterColons⟩, -, read⟩ := Option.bind_eq_some_iff.1 read
      cases colons with
      | false =>
        cases read
        exact ⟨name, [], rfl⟩
      | true =>
        obtain ⟨⟨segments, afterSegments⟩, found, read⟩ := Option.bind_eq_some_iff.1 read
        cases read
        obtain ⟨first, names, rfl⟩ := ih found
        exact ⟨name, first :: names, rfl⟩
    · cases read

namespace Node

theorem path?_of_path {owner text : String} {path : Node}
    (h : ModelText.path owner text = .ok path) : path? text = some path := by
  unfold ModelText.path ModelText.orInvalid at h
  split at h
  · next read =>
    cases h
    exact read
  · cases h

theorem eq_path_of_path? {text : String} {node : Node} (read : path? text = some node) :
    ∃ rooted first names, node = .path rooted ((first :: names).map (segment · none)) := by
  obtain ⟨tokens, -, read⟩ := Option.bind_eq_some_iff.1 read
  unfold readAll? at read
  split at read
  · next found =>
    cases read
    have steps : Grammar.plainPath tokens = (Reader.sign? "::" tokens).bind fun (rooted, rest) =>
        (Grammar.plainSegments (rest.length + 1) rest).bind fun (segments, rest) =>
          some (.path rooted segments, rest) := rfl
    have found : Grammar.plainPath tokens = some (node, []) := found
    rw [steps] at found
    obtain ⟨⟨rooted, rest⟩, -, found⟩ := Option.bind_eq_some_iff.1 found
    obtain ⟨⟨segments, rest⟩, plain, found⟩ := Option.bind_eq_some_iff.1 found
    cases found
    obtain ⟨first, names, rfl⟩ := Grammar.plainSegments_eq plain
    exact ⟨rooted, first, names, rfl⟩
  · cases read

end Node

end Code

/-! ## Items of a file -/

/-- The public item is defined by the file. -/
def Code.File.Defines (file : Code.File) (item : String) : Prop :=
  ∃ node ∈ file.items, node.publicName? = some item

/-! ## Imports of jobs -/

/-- The import of an item of another job's file. -/
structure Import where
  /-- The job whose file defines the item. -/
  target : Job
  /-- The item. -/
  item : String

/-- The path of the import. -/
def Import.path (imported : Import) : Except Failure (List String) :=
  ItemPath.ofFileItem imported.target.place imported.target.task.fileModule imported.item

namespace Optics

/-- The items that all lenses and prisms build on. -/
def supportItems : List String :=
  ["AsyncSetter", "BoxFuture", "Setter", "id_async_setter", "id_setter", "then", "then_async"]

/-- The imports of the setters and their functions. -/
def supportTargets (around : Surroundings) : List Import :=
  supportItems.map fun item => ⟨⟨.setters, around.support⟩, item⟩

/-- The imports of the products for shapes of these widths. -/
def productTargets (around : Surroundings) (widths : List Nat) : List Import :=
  (Ordered.sortedSet compare (widths.filter (· ≥ 2))).map fun width =>
    ⟨⟨.product width, around.products⟩, productType width⟩

end Optics

namespace Job

/-- What the file of a job imports from files of other jobs. -/
def imports (job : Job) : List Import :=
  let products := sibling job.place .products
  let sums := sibling job.place .sums
  let around := Plan.surroundings job.place
  match job.task with
  | .product _ => [⟨⟨.productMarker, job.place⟩, "Product"⟩]
  | .arithmetic dimension =>
    (List.range' 2 (dimension - 1)).map fun width =>
      ⟨⟨.product width, job.place⟩, productType width⟩
  | .sum _ => [⟨⟨.sumMarker, job.place⟩, "Sum"⟩]
  | .duality dimension =>
    let sumItem (item : String) : Import := ⟨⟨.sum dimension, sums⟩, item⟩
    [⟨⟨.product dimension, products⟩, productType dimension⟩, sumItem (sumType dimension),
      sumItem s!"sum{dimension}"] ++
      (slotsDown dimension).map fun slot => sumItem (injection dimension slot)
  | .evolvingProduct dimension => [⟨⟨.product dimension, products⟩, productType dimension⟩]
  | .evolvingSum dimension =>
    [⟨⟨.product dimension, products⟩, productType dimension⟩,
      ⟨⟨.sum dimension, sums⟩, sumType dimension⟩]
  | .lens _ record =>
    Optics.supportTargets around ++ Optics.productTargets around [record.fields.length]
  | .prism _ set =>
    let widths := set.variants.map (·.fields.length)
    (if widths.any (· > 0) then Optics.supportTargets around else []) ++
      Optics.productTargets around widths ++
      [⟨⟨.sum set.variants.length, around.sums⟩, sumType set.variants.length⟩]
  | .productMarker | .sumMarker | .keys _ _ | .setters => []

/-- The imports of the types that the declaration of a job refers to. -/
def typeImports (job : Job) : Except Failure (List Node) :=
  match job.task with
  | .lens _ record => Optics.typeImports record.name (record.fields.map (·.type))
  | .prism _ set =>
    Optics.typeImports set.name ((set.fields ++ set.variants.flatMap (·.fields)).map (·.type))
  | _ => .ok []

/-- The imports of a job's file are imports from libraries, then imports of generated items along
these paths, then those of the types of its declaration. -/
def Imports (job : Job) (file : File) (paths : List (List String)) : Prop :=
  ∃ outside own, file.items.filter Node.isUse = outside ++ paths.map Node.importing ++ own ∧
    (∀ node ∈ outside, node.IsOutside) ∧ (∀ path ∈ paths, path.head? = some "crate") ∧
    job.typeImports = .ok own

end Job

/-! ## The imports that code holds -/

/-- The imports of the file are imports from libraries, then these imports of generated items, then
these of types. -/
def Code.File.HasImports (file : File) (imports : List Import) (own : List Node) : Prop :=
  ∃ outside paths, List.Forall₂ (fun imported path => imported.path = .ok path) imports paths ∧
    file.items.filter Node.isUse = outside ++ paths.map Node.importing ++ own ∧
    ∀ node ∈ outside, node.IsOutside

theorem head?_of_path {imported : Import} {path : List String} (h : imported.path = .ok path) :
    path.head? = some "crate" := by
  obtain ⟨_, rooted, result⟩ := Outcome.bind_eq_ok_iff.1 h
  obtain ⟨names, -, root⟩ := Outcome.bind_eq_ok_iff.1 rooted
  rw [← Outcome.pure_eq_ok_iff.1 result, ← Outcome.pure_eq_ok_iff.1 root]
  rfl

theorem paths_of_mapM {α : Type} (toImport : α → Import) {xs : List α} {nodes : List Node}
    (h : xs.mapM (fun x => Node.importing <$> (toImport x).path) = .ok nodes) :
    ∃ paths, List.Forall₂ (fun imported path => imported.path = .ok path) (xs.map toImport) paths ∧
      nodes = paths.map Node.importing := by
  have related := Outcome.mapM_eq_ok_iff.1 h
  clear h
  induction related with
  | nil => exact ⟨[], .nil, rfl⟩
  | cons head _ ih =>
    obtain ⟨path, found, rfl⟩ := Outcome.map_eq_ok_iff.1 head
    obtain ⟨paths, others, rfl⟩ := ih
    exact ⟨path :: paths, .cons found others, rfl⟩

theorem isOutside_importing {library : String} (known : library ∈ ["std", "serde"])
    (name : String) (rest : List String) : (Node.importing (library :: name :: rest)).IsOutside :=
  ⟨library, known, some (Node.importSteps (name :: rest)), rfl⟩

namespace Code.Node

@[simp] theorem isUse_importing (names : List String) : (importing names).isUse = true := rfl

@[simp] theorem isUse_methodsOf (generics : Option Node) (type : Node) (items : List Node) :
    (methodsOf generics type items).isUse = false := rfl

theorem filter_isUse_importing (paths : List (List String)) :
    (paths.map importing).filter isUse = paths.map importing := by
  rw [List.filter_eq_self, List.forall_mem_map]
  exact fun _ _ => rfl

theorem filter_isUse_map {α : Type} {item : α → Node} (h : ∀ x, (item x).isUse = false)
    (xs : List α) : (xs.map item).filter isUse = [] := by
  rw [List.filter_eq_nil_iff, List.forall_mem_map]
  exact fun x _ => by simp [h x]

end Code.Node

namespace Family

theorem Product.hasImports {dimension : Nat} {place : Place} {file : File}
    (h : Product.file dimension place = .ok file) :
    file.HasImports [⟨⟨.productMarker, place⟩, "Product"⟩] [] := by
  obtain ⟨path, found, result⟩ := Outcome.bind_eq_ok_iff.1 h
  rw [← Outcome.pure_eq_ok_iff.1 result]
  refine ⟨[], [path], .cons found .nil, ?_, by simp⟩
  rw [List.filter_append, List.filter_append, Node.filter_isUse_map fun _ => rfl]
  rfl

theorem Sum.hasImports {dimension : Nat} {place : Place} {file : File}
    (h : Sum.file dimension place = .ok file) :
    file.HasImports [⟨⟨.sumMarker, place⟩, "Sum"⟩] [] := by
  obtain ⟨path, found, result⟩ := Outcome.bind_eq_ok_iff.1 h
  rw [← Outcome.pure_eq_ok_iff.1 result]
  refine ⟨[], [path], .cons found .nil, ?_, by simp⟩
  rw [List.filter_append, List.filter_append, Node.filter_isUse_map fun _ => rfl]
  rfl

theorem Arithmetic.hasImports {dimension : Nat} {place : Place} {file : File}
    (h : Arithmetic.file dimension place = .ok file) :
    file.HasImports
      ((List.range' 2 (dimension - 1)).map fun width =>
        ⟨⟨.product width, place⟩, productType width⟩) [] := by
  obtain ⟨nodes, found, result⟩ := Outcome.bind_eq_ok_iff.1 h
  rw [← Outcome.pure_eq_ok_iff.1 result]
  obtain ⟨paths, related, rfl⟩ := paths_of_mapM
    (fun width => ⟨⟨.product width, place⟩, productType width⟩) found
  have code : ((List.range' 1 (dimension - 1)).flatMap (splitPoint dimension)).filter Node.isUse =
      [] := by
    rw [List.filter_eq_nil_iff, List.forall_mem_flatMap]
    intro first _
    simp only [splitPoint, multiplication, List.forall_mem_append, List.forall_mem_cons]
    refine ⟨⟨Bool.false_ne_true, Bool.false_ne_true, List.forall_mem_nil _⟩, ?_⟩
    split <;> simp [Node.isUse, Node.traitFor]
  have outside : (if dimension ≥ 4 then [Node.importing ["std", "ops", "Mul"]] else []).filter
      Node.isUse = if dimension ≥ 4 then [Node.importing ["std", "ops", "Mul"]] else [] := by
    split <;> rfl
  refine ⟨if dimension ≥ 4 then [Node.importing ["std", "ops", "Mul"]] else [], paths, related,
    ?_, ?_⟩
  · rw [List.filter_append, List.filter_append, Node.filter_isUse_importing, code, outside]
  · split
    · simpa using isOutside_importing (by simp) "ops" ["Mul"]
    · simp

theorem Duality.hasImports {dimension : Nat} {products sums : Place} {file : File}
    (h : Duality.file dimension products sums = .ok file) :
    file.HasImports
      ([⟨⟨.product dimension, products⟩, productType dimension⟩,
          ⟨⟨.sum dimension, sums⟩, sumType dimension⟩,
          ⟨⟨.sum dimension, sums⟩, s!"sum{dimension}"⟩] ++
        (slotsDown dimension).map fun slot =>
          ⟨⟨.sum dimension, sums⟩, injection dimension slot⟩) [] := by
  obtain ⟨productPath, product, h⟩ := Outcome.bind_eq_ok_iff.1 h
  obtain ⟨sumPath, sum, h⟩ := Outcome.bind_eq_ok_iff.1 h
  obtain ⟨casePath, case_, h⟩ := Outcome.bind_eq_ok_iff.1 h
  obtain ⟨injectionPaths, injections, h⟩ := Outcome.bind_eq_ok_iff.1 h
  rw [← Outcome.pure_eq_ok_iff.1 h]
  have related := Outcome.mapM_eq_ok_iff.1 injections
  refine ⟨[Node.importing ["std", "rc", "Rc"]], productPath :: sumPath :: casePath :: injectionPaths,
    .cons product (.cons sum (.cons case_ (List.forall₂_map_left_iff.2 related))), ?_, ?_⟩
  · have code : List.filter Node.isUse [opposeProduct dimension, opposeSum dimension,
        measure dimension, measureUniform dimension] = [] := rfl
    rw [List.filter_append, List.filter_append, Node.filter_isUse_importing, code,
      List.append_nil, List.append_nil]
    rfl
  · simpa using isOutside_importing (by simp) "rc" ["Rc"]

theorem Evolution.product_hasImports {dimension : Nat} {products : Place} {file : File}
    (h : Evolution.productFile dimension products = .ok file) :
    file.HasImports [⟨⟨.product dimension, products⟩, productType dimension⟩] [] := by
  obtain ⟨path, found, result⟩ := Outcome.bind_eq_ok_iff.1 h
  rw [← Outcome.pure_eq_ok_iff.1 result]
  refine ⟨[Node.importing ["std", "future", "Future"]], [path], .cons found .nil, rfl, ?_⟩
  simpa using isOutside_importing (by simp) "future" ["Future"]

theorem Evolution.sum_hasImports {dimension : Nat} {products sums : Place} {file : File}
    (h : Evolution.sumFile dimension products sums = .ok file) :
    file.HasImports
      [⟨⟨.product dimension, products⟩, productType dimension⟩,
        ⟨⟨.sum dimension, sums⟩, sumType dimension⟩] [] := by
  obtain ⟨productPath, product, h⟩ := Outcome.bind_eq_ok_iff.1 h
  obtain ⟨sumPath, sum, h⟩ := Outcome.bind_eq_ok_iff.1 h
  rw [← Outcome.pure_eq_ok_iff.1 h]
  refine ⟨[Node.importing ["std", "future", "Future"]], [productPath, sumPath],
    .cons product (.cons sum .nil), rfl, ?_⟩
  simpa using isOutside_importing (by simp) "future" ["Future"]

end Family

theorem Keys.hasImports {group : KeyGroup} {place : Place} {file : File}
    (h : Keys.file group place = .ok file) : file.HasImports [] [] := by
  obtain ⟨keyType, -, h⟩ := Outcome.bind_eq_ok_iff.1 h
  obtain ⟨indexType, -, h⟩ := Outcome.bind_eq_ok_iff.1 h
  rw [← Outcome.pure_eq_ok_iff.1 h]
  cases group.serializable with
  | true =>
    refine ⟨[Keys.serializationImport], [], .nil, rfl, ?_⟩
    simpa using ⟨"serde", by simp, _, rfl⟩
  | false => exact ⟨[], [], .nil, rfl, by simp⟩

namespace Optics

theorem Support.hasImports : Support.file.HasImports [] [] := by
  refine ⟨[Node.importing ["std", "future", "Future"], Node.importing ["std", "pin", "Pin"]], [],
    .nil, rfl, ?_⟩
  simpa using ⟨isOutside_importing (by simp) "future" ["Future"],
    isOutside_importing (by simp) "pin" ["Pin"]⟩

theorem supportTargets_of_supportImports {around : Surroundings} {nodes : List Node}
    (h : supportImports around = .ok nodes) :
    ∃ paths, List.Forall₂ (fun imported path => imported.path = .ok path)
        (supportTargets around) paths ∧ nodes = paths.map Node.importing :=
  paths_of_mapM (fun item => ⟨⟨.setters, around.support⟩, item⟩) h

theorem productTargets_of_productImports {around : Surroundings} {widths : List Nat}
    {nodes : List Node} (h : productImports around widths = .ok nodes) :
    ∃ paths, List.Forall₂ (fun imported path => imported.path = .ok path)
        (productTargets around widths) paths ∧ nodes = paths.map Node.importing :=
  paths_of_mapM
    (fun width => ⟨⟨.product width, around.products⟩, productType width⟩) h

theorem exists_path_of_path {owner text : String} {node : Node}
    (h : ModelText.path owner text = .ok node) : ∃ rooted segments, node = .path rooted segments := by
  obtain ⟨rooted, first, names, rfl⟩ := Node.eq_path_of_path? (Node.path?_of_path h)
  exact ⟨rooted, _, rfl⟩

theorem filter_isUse_typeImports {owner : String} {types : List TypeRef} {nodes : List Node}
    (h : typeImports owner types = .ok nodes) : nodes.filter Node.isUse = nodes := by
  obtain ⟨paths, found, result⟩ := Outcome.bind_eq_ok_iff.1 h
  rw [← Outcome.pure_eq_ok_iff.1 result, List.filter_eq_self, List.forall_mem_map]
  intro path member
  obtain ⟨text, -, read⟩ := Outcome.mem_of_mapM found member
  obtain ⟨rooted, segments, rfl⟩ := exists_path_of_path read
  rfl

theorem filter_isUse_serializationImport (serializable : Bool) :
    (serializationImport serializable).filter Node.isUse = serializationImport serializable := by
  cases serializable <;> rfl

theorem isOutside_of_mem_serializationImport {serializable : Bool} {node : Node}
    (h : node ∈ serializationImport serializable) : node.IsOutside := by
  cases serializable with
  | false => cases h
  | true =>
    cases List.mem_singleton.1 h
    exact ⟨"serde", by simp, _, rfl⟩

@[simp] theorem isUse_typeAlias (doc name : String) (generics : Option Node) (type : Node) :
    (typeAlias doc name generics type).isUse = false := rfl

@[simp] theorem Lens.isUse_struct (record : Record) (code : Lens.RecordCode) :
    (Lens.struct record code).isUse = false := by
  rw [Lens.struct, Node.isUse_behind]
  rfl

theorem Lens.filter_isUse_setterOps {code : Lens.RecordCode} {flavor : Flavor} {setters : Node}
    {nodes : List Node} (h : Lens.setterOps code flavor setters = .ok nodes) :
    nodes.filter Node.isUse = [] := by
  obtain ⟨trait, -, h⟩ := Outcome.bind_eq_ok_iff.1 h
  rw [← Outcome.pure_eq_ok_iff.1 h]
  rfl

theorem Lens.hasImports {record : Record} {around : Surroundings} {file : File}
    (h : Lens.file record around = .ok file) :
    ∃ own, typeImports record.name (record.fields.map (·.type)) = .ok own ∧
      file.HasImports
        (supportTargets around ++ productTargets around [record.fields.length]) own := by
  obtain ⟨code, recordCode, h⟩ := Outcome.bind_eq_ok_iff.1 h
  obtain ⟨setters, -, h⟩ := Outcome.bind_eq_ok_iff.1 h
  obtain ⟨asyncSetters, -, h⟩ := Outcome.bind_eq_ok_iff.1 h
  obtain ⟨support, supportOk, h⟩ := Outcome.bind_eq_ok_iff.1 h
  obtain ⟨products, productsOk, h⟩ := Outcome.bind_eq_ok_iff.1 h
  obtain ⟨own, ownOk, h⟩ := Outcome.bind_eq_ok_iff.1 h
  obtain ⟨simple, -, h⟩ := Outcome.bind_eq_ok_iff.1 h
  obtain ⟨ops, opsOk, h⟩ := Outcome.bind_eq_ok_iff.1 h
  obtain ⟨asyncOps, asyncOpsOk, h⟩ := Outcome.bind_eq_ok_iff.1 h
  rw [← Outcome.pure_eq_ok_iff.1 h]
  have reads := Lens.reads_of_ofRecord recordCode
  rw [reads.width] at productsOk
  rw [reads.owner] at ownOk
  obtain ⟨supportPaths, supportRelated, rfl⟩ := supportTargets_of_supportImports supportOk
  obtain ⟨productPaths, productsRelated, rfl⟩ := productTargets_of_productImports productsOk
  refine ⟨own, ownOk, Node.importing ["std", "future", "Future"] ::
    serializationImport record.serializable, supportPaths ++ productPaths,
    List.rel_append supportRelated productsRelated, ?_, ?_⟩
  · simp only [List.filter_append, Node.filter_isUse_importing, filter_isUse_typeImports ownOk,
      filter_isUse_serializationImport, Lens.filter_isUse_setterOps opsOk,
      Lens.filter_isUse_setterOps asyncOpsOk, List.filter_cons, List.filter_nil,
      Node.isUse_importing, Node.isUse_methodsOf, isUse_typeAlias, Lens.isUse_struct]
    simp
  · simp only [List.forall_mem_cons]
    exact ⟨isOutside_importing (by simp) "future" ["Future"],
      fun _ => isOutside_of_mem_serializationImport⟩

@[simp] theorem Prism.isUse_enumerationItem (set : VariantSet) (code : Prism.SetCode) :
    (Prism.enumerationItem set code).isUse = false := by
  rw [Prism.enumerationItem, Node.isUse_behind]
  rfl

theorem Prism.filter_isUse_baseGetters (code : Prism.SetCode) :
    (Prism.baseGetters code).filter Node.isUse = [] := by
  unfold Prism.baseGetters
  split <;> rfl

theorem Prism.filter_isUse_setterOps {set : VariantSet} {code : Prism.SetCode} {flavor : Flavor}
    {setters : Node} {nodes : List Node}
    (h : Prism.setterOps set code flavor setters = .ok nodes) : nodes.filter Node.isUse = [] := by
  obtain ⟨shared, -, h⟩ := Outcome.bind_eq_ok_iff.1 h
  obtain ⟨variants, -, h⟩ := Outcome.bind_eq_ok_iff.1 h
  obtain ⟨trait, -, h⟩ := Outcome.bind_eq_ok_iff.1 h
  rw [← Outcome.pure_eq_ok_iff.1 h]
  rfl

theorem Prism.hasImports {set : VariantSet} {around : Surroundings} {file : File}
    (h : Prism.file set around = .ok file) :
    ∃ own,
      typeImports set.name ((set.fields ++ set.variants.flatMap (·.fields)).map (·.type)) =
        .ok own ∧
      file.HasImports
        ((if (set.variants.map (·.fields.length)).any (· > 0) then supportTargets around else []) ++
          productTargets around (set.variants.map (·.fields.length)) ++
          [⟨⟨.sum set.variants.length, around.sums⟩, sumType set.variants.length⟩]) own := by
  obtain ⟨code, setCode, h⟩ := Outcome.bind_eq_ok_iff.1 h
  obtain ⟨setters, -, h⟩ := Outcome.bind_eq_ok_iff.1 h
  obtain ⟨asyncSetters, -, h⟩ := Outcome.bind_eq_ok_iff.1 h
  obtain ⟨support, supportOk, h⟩ := Outcome.ite_bind_eq_ok_iff.1 h
  obtain ⟨products, productsOk, h⟩ := Outcome.bind_eq_ok_iff.1 h
  obtain ⟨sumPath, sumOk, h⟩ := Outcome.bind_eq_ok_iff.1 h
  obtain ⟨own, ownOk, h⟩ := Outcome.bind_eq_ok_iff.1 h
  obtain ⟨ops, opsOk, h⟩ := Outcome.bind_eq_ok_iff.1 h
  obtain ⟨asyncOps, asyncOpsOk, h⟩ := Outcome.bind_eq_ok_iff.1 h
  rw [← Outcome.pure_eq_ok_iff.1 h]
  have reads := Prism.reads_of_ofSet setCode
  rw [reads.widths] at supportOk productsOk
  rw [Prism.SetCode.sum, reads.count] at sumOk
  rw [reads.owner] at ownOk
  have supportRelated : ∃ paths,
      List.Forall₂ (fun imported path => imported.path = .ok path)
        (if (set.variants.map (·.fields.length)).any (· > 0) then supportTargets around else [])
        paths ∧ support = paths.map Node.importing := by
    split at supportOk
    · next used =>
      rw [if_pos used]
      exact supportTargets_of_supportImports supportOk
    · next unused =>
      rw [if_neg unused, ← Outcome.pure_eq_ok_iff.1 supportOk]
      exact ⟨[], .nil, rfl⟩
  obtain ⟨supportPaths, supportRelated, rfl⟩ := supportRelated
  obtain ⟨productPaths, productsRelated, rfl⟩ := productTargets_of_productImports productsOk
  refine ⟨own, ownOk, serializationImport set.serializable,
    supportPaths ++ productPaths ++ [sumPath],
    List.rel_append (List.rel_append supportRelated productsRelated) (.cons sumOk .nil), ?_,
    fun _ => isOutside_of_mem_serializationImport⟩
  simp only [List.filter_append, Node.filter_isUse_importing, filter_isUse_typeImports ownOk,
    filter_isUse_serializationImport, Prism.filter_isUse_baseGetters,
    Prism.filter_isUse_setterOps opsOk, Prism.filter_isUse_setterOps asyncOpsOk,
    List.filter_cons, List.filter_nil, Node.isUse_importing, Node.isUse_methodsOf,
    isUse_typeAlias, Prism.isUse_enumerationItem]
  simp

end Optics

/-- The code of a job holds exactly the imports of the job. -/
theorem Job.hasImports_of_code {job : Job} {file : File} (h : job.code = .ok file) :
    ∃ own, job.typeImports = .ok own ∧ file.HasImports job.imports own := by
  rcases job with ⟨task, place⟩
  cases task with
  | productMarker =>
    cases h
    exact ⟨[], rfl, [], [], .nil, rfl, by simp⟩
  | product dimension => exact ⟨[], rfl, Family.Product.hasImports h⟩
  | arithmetic dimension => exact ⟨[], rfl, Family.Arithmetic.hasImports h⟩
  | sumMarker =>
    cases h
    exact ⟨[], rfl, [], [], .nil, rfl, by simp⟩
  | sum dimension => exact ⟨[], rfl, Family.Sum.hasImports h⟩
  | duality dimension => exact ⟨[], rfl, Family.Duality.hasImports h⟩
  | evolvingProduct dimension => exact ⟨[], rfl, Family.Evolution.product_hasImports h⟩
  | evolvingSum dimension => exact ⟨[], rfl, Family.Evolution.sum_hasImports h⟩
  | keys index group => exact ⟨[], rfl, Keys.hasImports h⟩
  | setters =>
    cases h
    exact ⟨[], rfl, Optics.Support.hasImports⟩
  | lens index record => exact Optics.Lens.hasImports h
  | prism index set => exact Optics.Prism.hasImports h

/-! ## The items that are imported -/

namespace Family

theorem Product.defines {dimension : Nat} {place : Place} {file : File}
    (h : Product.file dimension place = .ok file) : file.Defines (productType dimension) := by
  obtain ⟨path, -, result⟩ := Outcome.bind_eq_ok_iff.1 h
  rw [← Outcome.pure_eq_ok_iff.1 result]
  exact ⟨struct dimension, by simp, rfl⟩

theorem Sum.defines {dimension : Nat} {place : Place} {file : File}
    (h : Sum.file dimension place = .ok file) :
    file.Defines (sumType dimension) ∧ file.Defines s!"sum{dimension}" ∧
      ∀ slot ∈ slotsDown dimension, file.Defines (injection dimension slot) := by
  obtain ⟨path, -, result⟩ := Outcome.bind_eq_ok_iff.1 h
  rw [← Outcome.pure_eq_ok_iff.1 result]
  refine ⟨⟨Sum.enumeration dimension, by simp, rfl⟩, ⟨caseFunction dimension, by simp, ?_⟩,
    fun slot member => ⟨injectionItem dimension slot, ?_, rfl⟩⟩
  · rw [caseFunction, Node.publicName?_behind]
    rfl
  · have up : slot ∈ slotsUp dimension := List.mem_reverse.1 member
    simp only [List.mem_append, List.mem_map]
    exact .inl (.inr ⟨slot, up, rfl⟩)

end Family

theorem Optics.Support.defines {item : String} (h : item ∈ Optics.supportItems) :
    Optics.Support.file.Defines item := by
  simp only [Optics.supportItems, List.mem_cons, List.not_mem_nil, or_false] at h
  have names : ["Setter", "BoxFuture", "AsyncSetter", "id_setter", "id_async_setter", "then",
      "then_async"].map some =
        (Optics.Support.types ++ Optics.Support.identities ++ Optics.Support.compositions).map
          Node.publicName? := rfl
  have member : some item ∈ (Optics.Support.types ++ Optics.Support.identities ++
      Optics.Support.compositions).map Node.publicName? := by
    rw [← names]
    obtain rfl | rfl | rfl | rfl | rfl | rfl | rfl := h <;> simp
  obtain ⟨node, inside, name⟩ := List.mem_map.1 member
  refine ⟨node, ?_, name⟩
  simp only [List.mem_append] at inside
  simp only [Optics.Support.file, List.mem_append]
  obtain (types | identities) | compositions := inside
  · exact .inl (.inl (.inl (.inr types)))
  · exact .inl (.inl (.inr identities))
  · exact .inl (.inr compositions)

theorem mem_productTargets_iff {around : Optics.Surroundings} {widths : List Nat}
    {imported : Import} :
    imported ∈ Optics.productTargets around widths ↔
      ∃ width ∈ widths, 2 ≤ width ∧
        imported = ⟨⟨.product width, around.products⟩, productType width⟩ := by
  have set_iff (width : Nat) : width ∈ Ordered.sortedSet compare (widths.filter (· ≥ 2)) ↔
      width ∈ widths ∧ 2 ≤ width := by
    rw [Ordered.mem_sortedSet_iff fun _ _ _ _ => Std.LawfulEqOrd.eq_of_compare]
    simp
  simp only [Optics.productTargets, List.mem_map, set_iff, and_assoc, eq_comm]

theorem mem_productTargets {widths : List Nat} {width : Nat} (inside : width ∈ widths)
    (wide : 2 ≤ width) (around : Optics.Surroundings) :
    ⟨⟨.product width, around.products⟩, productType width⟩ ∈
      Optics.productTargets around widths :=
  mem_productTargets_iff.2 ⟨width, inside, wide, rfl⟩

theorem mem_supportTargets_iff {around : Optics.Surroundings} {imported : Import} :
    imported ∈ Optics.supportTargets around ↔
      ∃ item ∈ Optics.supportItems, imported = ⟨⟨.setters, around.support⟩, item⟩ := by
  simp only [Optics.supportTargets, List.mem_map, eq_comm]

/-- An import that a generated file can satisfy: its item is one that the target's file defines
whenever the target has code. -/
inductive Import.Known : Import → Prop where
  /-- The trait that marks products. -/
  | productMarker (place : Place) : Known ⟨⟨.productMarker, place⟩, "Product"⟩
  /-- The trait that marks sums. -/
  | sumMarker (place : Place) : Known ⟨⟨.sumMarker, place⟩, "Sum"⟩
  /-- A product type. -/
  | product (dimension : Nat) (place : Place) :
    Known ⟨⟨.product dimension, place⟩, productType dimension⟩
  /-- A sum type. -/
  | sum (dimension : Nat) (place : Place) : Known ⟨⟨.sum dimension, place⟩, sumType dimension⟩
  /-- The function that handles all cases of a sum. -/
  | cases (dimension : Nat) (place : Place) : Known ⟨⟨.sum dimension, place⟩, s!"sum{dimension}"⟩
  /-- The function that puts a value into one case of a sum. -/
  | injection {dimension slot : Nat} (place : Place) (inside : slot ∈ slotsDown dimension) :
    Known ⟨⟨.sum dimension, place⟩, injection dimension slot⟩
  /-- An item that lenses and prisms build on. -/
  | support {item : String} (place : Place) (inside : item ∈ Optics.supportItems) :
    Known ⟨⟨.setters, place⟩, item⟩

theorem sourceRoot_sibling (place : Place) (kind : Kind) :
    (sibling place kind).sourceRoot = place.sourceRoot := rfl

theorem Import.known_of_mem {job : Job} {imported : Import} (h : imported ∈ job.imports) :
    imported.Known ∧ imported.target.place.sourceRoot = job.place.sourceRoot := by
  rcases job with ⟨task, place⟩
  cases task with
  | productMarker | sumMarker | keys | setters => cases h
  | product dimension =>
    cases List.mem_singleton.1 h
    exact ⟨.productMarker place, rfl⟩
  | arithmetic dimension =>
    obtain ⟨width, -, rfl⟩ := List.mem_map.1 h
    exact ⟨.product width place, rfl⟩
  | sum dimension =>
    cases List.mem_singleton.1 h
    exact ⟨.sumMarker place, rfl⟩
  | duality dimension =>
    simp only [Job.imports, List.mem_append, List.mem_cons, List.not_mem_nil, or_false,
      List.mem_map] at h
    obtain (rfl | rfl | rfl) | ⟨slot, inside, rfl⟩ := h
    · exact ⟨.product dimension _, sourceRoot_sibling place .products⟩
    · exact ⟨.sum dimension _, sourceRoot_sibling place .sums⟩
    · exact ⟨.cases dimension _, sourceRoot_sibling place .sums⟩
    · exact ⟨.injection _ inside, sourceRoot_sibling place .sums⟩
  | evolvingProduct dimension =>
    cases List.mem_singleton.1 h
    exact ⟨.product dimension _, sourceRoot_sibling place .products⟩
  | evolvingSum dimension =>
    simp only [Job.imports, List.mem_cons, List.not_mem_nil, or_false] at h
    obtain rfl | rfl := h
    · exact ⟨.product dimension _, sourceRoot_sibling place .products⟩
    · exact ⟨.sum dimension _, sourceRoot_sibling place .sums⟩
  | lens index record =>
    obtain support | product := List.mem_append.1 h
    · obtain ⟨item, inside, rfl⟩ := mem_supportTargets_iff.1 support
      exact ⟨.support _ inside, rfl⟩
    · obtain ⟨width, -, -, rfl⟩ := mem_productTargets_iff.1 product
      exact ⟨.product width _, rfl⟩
  | prism index set =>
    simp only [Job.imports, List.mem_append, List.mem_singleton] at h
    obtain (support | product) | rfl := h
    · split at support
      · obtain ⟨item, inside, rfl⟩ := mem_supportTargets_iff.1 support
        exact ⟨.support _ inside, rfl⟩
      · cases support
    · obtain ⟨width, -, -, rfl⟩ := mem_productTargets_iff.1 product
      exact ⟨.product width _, rfl⟩
    · exact ⟨.sum set.variants.length _, rfl⟩

theorem Import.Known.defines {imported : Import} (known : imported.Known) {file : File}
    (h : imported.target.code = .ok file) : file.Defines imported.item := by
  cases known with
  | productMarker place =>
    cases h
    exact ⟨_, List.mem_singleton_self _, rfl⟩
  | sumMarker place =>
    cases h
    exact ⟨_, List.mem_singleton_self _, rfl⟩
  | product dimension place => exact Family.Product.defines h
  | sum dimension place => exact (Family.Sum.defines h).1
  | cases dimension place => exact (Family.Sum.defines h).2.1
  | injection place inside => exact (Family.Sum.defines h).2.2 _ inside
  | support place inside =>
    cases h
    exact Optics.Support.defines inside

theorem Import.Known.isLegal_fileModule {imported : Import} (known : imported.Known) :
    isLegal imported.target.task.fileModule = true := by
  cases known with
  | productMarker =>
    show isLegal productMarkerModule = true
    decide
  | sumMarker =>
    show isLegal sumMarkerModule = true
    decide
  | support =>
    show isLegal functionsModule = true
    decide
  | product => exact isLegal_append_toString "product_" (by decide) _
  | sum | cases | injection => exact isLegal_append_toString "sum_" (by decide) _

/-! ## Imports within a plan -/

namespace Plan

theorem includes_productMarker {request : Request} {dimension : Nat} {place : Place}
    (requested : Requested request ⟨.product dimension, place⟩) {imported : Import}
    (h : imported ∈ Job.imports ⟨.product dimension, place⟩) :
    Includes request imported.target := by
  cases List.mem_singleton.1 h
  exact .inr ⟨_, requested, List.mem_singleton_self _⟩

theorem includes_sumMarker {request : Request} {dimension : Nat} {place : Place}
    (requested : Requested request ⟨.sum dimension, place⟩) {imported : Import}
    (h : imported ∈ Job.imports ⟨.sum dimension, place⟩) :
    Includes request imported.target := by
  cases List.mem_singleton.1 h
  exact .inr ⟨_, requested, List.mem_singleton_self _⟩

/-- What a job of a plan imports is of a job of the plan. -/
theorem Includes.target {request : Request} {job : Job} (included : Includes request job)
    {imported : Import} (h : imported ∈ job.imports) : Includes request imported.target := by
  obtain requested | ⟨other, -, marks⟩ := included
  · cases requested with
    | product chosen member => exact includes_productMarker (.product chosen member) h
    | sum chosen member => exact includes_sumMarker (.sum chosen member) h
    | arithmetic chosen member among =>
      obtain ⟨width, lower, upper, rfl⟩ | rfl := mem_arithmeticJobs_iff.1 among
      · exact includes_productMarker (.arithmetic chosen member among) h
      · obtain ⟨width, bounds, rfl⟩ := List.mem_map.1 h
        rw [List.mem_range'_1] at bounds
        exact .inl (.arithmetic chosen member
          (mem_arithmeticJobs_iff.2 (.inl ⟨width, bounds.1, by omega, rfl⟩)))
    | @duality _ dimension place _ chosen member among =>
      have product : Requested request (productBeside place dimension) :=
        .duality chosen member (by simp [dualityJobs])
      have sum : Requested request (sumBeside place dimension) :=
        .duality chosen member (by simp [dualityJobs])
      simp only [dualityJobs, List.mem_cons, List.not_mem_nil, or_false] at among
      obtain rfl | rfl | rfl := among
      · exact includes_productMarker product h
      · exact includes_sumMarker sum h
      · simp only [Job.imports, List.mem_append, List.mem_cons, List.not_mem_nil, or_false,
          List.mem_map] at h
        obtain (rfl | rfl | rfl) | ⟨slot, -, rfl⟩ := h
        · exact .inl product
        · exact .inl sum
        · exact .inl sum
        · exact .inl sum
    | @evolvingProduct _ dimension place _ chosen member among =>
      have product : Requested request (productBeside place dimension) :=
        .evolvingProduct chosen member (by simp [evolvingProductJobs])
      simp only [evolvingProductJobs, List.mem_cons, List.not_mem_nil, or_false] at among
      obtain rfl | rfl := among
      · exact includes_productMarker product h
      · cases List.mem_singleton.1 h
        exact .inl product
    | @evolvingSum _ dimension place _ chosen member among =>
      have product : Requested request (productBeside place dimension) :=
        .evolvingSum chosen member (by simp [evolvingSumJobs])
      have sum : Requested request (sumBeside place dimension) :=
        .evolvingSum chosen member (by simp [evolvingSumJobs])
      simp only [evolvingSumJobs, List.mem_cons, List.not_mem_nil, or_false] at among
      obtain rfl | rfl | rfl := among
      · exact includes_productMarker product h
      · exact includes_sumMarker sum h
      · simp only [Job.imports, List.mem_cons, List.not_mem_nil, or_false] at h
        obtain rfl | rfl := h
        · exact .inl product
        · exact .inl sum
    | keys kept among =>
      obtain ⟨group, index, found, rfl⟩ := mem_keyJobs kept among
      cases h
    | lens found among =>
      obtain ⟨wide, rfl⟩ | rfl | rfl := mem_lensJobs_iff.1 among
      · exact includes_productMarker (.lens found among) h
      · cases h
      · obtain support | product := List.mem_append.1 h
        · obtain ⟨item, -, rfl⟩ := mem_supportTargets_iff.1 support
          exact .inl (.lens found (mem_lensJobs_iff.2 (.inr (.inl rfl))))
        · obtain ⟨width, same, wide, rfl⟩ := mem_productTargets_iff.1 product
          cases List.mem_singleton.1 same
          exact .inl (.lens found (mem_lensJobs_iff.2 (.inl ⟨wide, rfl⟩)))
    | prism found among =>
      obtain rfl | ⟨variant, inside, wide, rfl⟩ | rfl | rfl := mem_prismJobs_iff.1 among
      · exact includes_sumMarker (.prism found among) h
      · exact includes_productMarker (.prism found among) h
      · cases h
      · simp only [Job.imports, List.mem_append, List.mem_singleton] at h
        obtain (support | product) | rfl := h
        · split at support
          · obtain ⟨item, -, rfl⟩ := mem_supportTargets_iff.1 support
            exact .inl (.prism found (mem_prismJobs_iff.2 (.inr (.inr (.inl rfl)))))
          · cases support
        · obtain ⟨width, inside, wide, rfl⟩ := mem_productTargets_iff.1 product
          obtain ⟨variant, given, rfl⟩ := List.mem_map.1 inside
          exact .inl (.prism found
            (mem_prismJobs_iff.2 (.inr (.inl ⟨variant, given, wide, rfl⟩))))
        · exact .inl (.prism found (mem_prismJobs_iff.2 (.inl rfl)))
  · obtain ⟨_, -, rfl⟩ | ⟨_, -, rfl⟩ := mem_markerJobs_iff.1 marks <;> cases h

/-- A product or sum that a selection of the request names itself. -/
def Selects (request : Request) (job : Job) : Prop :=
  match job.task with
  | .product dimension =>
    ∃ choices, selected request .products request.products = .ok choices ∧
      (dimension, job.place) ∈ choices
  | .sum dimension =>
    ∃ choices, selected request .sums request.sums = .ok choices ∧
      (dimension, job.place) ∈ choices
  | _ => False

/-- A task for a type that other files build on, or for the trait that marks such types. -/
def IsShared : Task → Prop
  | .product _ | .sum _ | .productMarker | .sumMarker => True
  | _ => False

/-- A shared type or marking trait that no selection names is imported by another job. -/
theorem Includes.importer {request : Request} {job : Job} (included : Includes request job)
    (shared : IsShared job.task) (unselected : ¬ Selects request job) :
    ∃ importer, Includes request importer ∧ importer ≠ job ∧
      ∃ imported ∈ importer.imports, imported.target = job := by
  obtain requested | ⟨other, requested, marks⟩ := included
  · cases requested with
    | product chosen member => exact absurd ⟨_, chosen, member⟩ unselected
    | sum chosen member => exact absurd ⟨_, chosen, member⟩ unselected
    | @arithmetic _ dimension place _ chosen member among =>
      obtain ⟨width, lower, upper, rfl⟩ | rfl := mem_arithmeticJobs_iff.1 among
      · refine ⟨⟨.arithmetic dimension, place⟩,
          .inl (.arithmetic chosen member (mem_arithmeticJobs_iff.2 (.inr rfl))),
          fun same => (by cases same),
          ⟨⟨.product width, place⟩, productType width⟩, ?_, rfl⟩
        exact List.mem_map.2 ⟨width, List.mem_range'_1.2 ⟨lower, by omega⟩, rfl⟩
      · exact absurd shared id
    | @duality _ dimension place _ chosen member among =>
      have importer : Requested request ⟨.duality dimension, place⟩ :=
        .duality chosen member (by simp [dualityJobs])
      simp only [dualityJobs, List.mem_cons, List.not_mem_nil, or_false] at among
      obtain rfl | rfl | rfl := among
      · exact ⟨_, .inl importer, fun same => (by cases same), _, List.mem_cons_self, rfl⟩
      · exact ⟨_, .inl importer, fun same => (by cases same), _,
          List.mem_cons_of_mem _ List.mem_cons_self, rfl⟩
      · exact absurd shared id
    | @evolvingProduct _ dimension place _ chosen member among =>
      have importer : Requested request ⟨.evolvingProduct dimension, place⟩ :=
        .evolvingProduct chosen member (by simp [evolvingProductJobs])
      simp only [evolvingProductJobs, List.mem_cons, List.not_mem_nil, or_false] at among
      obtain rfl | rfl := among
      · exact ⟨_, .inl importer, fun same => (by cases same), _, List.mem_cons_self, rfl⟩
      · exact absurd shared id
    | @evolvingSum _ dimension place _ chosen member among =>
      have importer : Requested request ⟨.evolvingSum dimension, place⟩ :=
        .evolvingSum chosen member (by simp [evolvingSumJobs])
      simp only [evolvingSumJobs, List.mem_cons, List.not_mem_nil, or_false] at among
      obtain rfl | rfl | rfl := among
      · exact ⟨_, .inl importer, fun same => (by cases same), _, List.mem_cons_self, rfl⟩
      · exact ⟨_, .inl importer, fun same => (by cases same), _,
          List.mem_cons_of_mem _ List.mem_cons_self, rfl⟩
      · exact absurd shared id
    | keys kept among =>
      obtain ⟨group, index, found, rfl⟩ := mem_keyJobs kept among
      exact absurd shared id
    | @lens index record _ found among =>
      obtain ⟨wide, rfl⟩ | rfl | rfl := mem_lensJobs_iff.1 among
      · have importer : Requested request
            ⟨.lens index record, opticsPlace .lenses record.location request.output⟩ :=
          .lens found (mem_lensJobs_iff.2 (.inr (.inr rfl)))
        have imported := mem_productTargets (List.mem_singleton_self record.fields.length) wide
          (surroundings (opticsPlace .lenses record.location request.output))
        exact ⟨_, .inl importer, fun same => (by cases same), _,
          List.mem_append_right _ imported, rfl⟩
      · exact absurd shared id
      · exact absurd shared id
    | @prism index set _ found among =>
      have importer : Requested request
          ⟨.prism index set, opticsPlace .prisms set.location request.output⟩ :=
        .prism found (mem_prismJobs_iff.2 (.inr (.inr (.inr rfl))))
      obtain rfl | ⟨variant, inside, wide, rfl⟩ | rfl | rfl := mem_prismJobs_iff.1 among
      · exact ⟨_, .inl importer, fun same => (by cases same), _,
          List.mem_append_right _ (List.mem_singleton_self _), rfl⟩
      · have imported := mem_productTargets
          (List.mem_map.2 ⟨variant, inside, rfl⟩ :
            variant.fields.length ∈ set.variants.map (·.fields.length)) wide
          (surroundings (opticsPlace .prisms set.location request.output))
        exact ⟨_, .inl importer, fun same => (by cases same), _,
          List.mem_append_left _ (List.mem_append_right _ imported), rfl⟩
      · exact absurd shared id
      · exact absurd shared id
  · rcases other with ⟨task, place⟩
    obtain ⟨dimension, rfl, rfl⟩ | ⟨dimension, rfl, rfl⟩ := mem_markerJobs_iff.1 marks
    · exact ⟨_, .inl requested, fun same => (by cases same), _, List.mem_singleton_self _, rfl⟩
    · exact ⟨_, .inl requested, fun same => (by cases same), _, List.mem_singleton_self _, rfl⟩

/-! ## The paths lead somewhere -/

theorem components_path {job : Job}
    (segments : ∀ segment ∈ job.place.segments, isLegal segment = true)
    (file : isLegal job.task.fileModule = true) :
    job.path.components =
      (FilePath.mk job.place.sourceRoot).components ++
        (job.place.segments ++ [job.task.fileModule ++ ".rs"]).map .entry := by
  have plain : FilePath.IsPlain (job.task.fileModule ++ ".rs") :=
    FilePath.isPlain_append_of_isLegal file (by decide)
  rw [Job.path, FilePath.components_push _ plain, Place.directory,
    FilePath.components_foldl_push _ _ fun segment member =>
      FilePath.isPlain_of_isLegal (segments segment member)]
  simp

/-- The path leads through the plan to a file below this source root and to a public item of it. -/
def Provides (plan : Plan) (sourceRoot : String) (path : List String) : Prop :=
  ∃ segments file item, path = "crate" :: (segments ++ [file, item]) ∧
    ∃ target ∈ plan.jobs, target.place.sourceRoot = sourceRoot ∧
      target.place.segments = segments ∧ target.task.fileModule = file ∧
      target.path.components = (FilePath.mk sourceRoot).components ++
        (segments ++ [file ++ ".rs"]).map .entry ∧
      ∃ code, target.code = .ok code ∧ code.Defines item

/-- What a job of a plan imports leads to a public item of a file of the plan. -/
theorem Planned.provides {request : Request} {plan : Plan} (planned : Planned request plan)
    (coded : ∀ job ∈ plan.jobs, ∃ file, job.code = .ok file) {job : Job} (member : job ∈ plan.jobs)
    {imported : Import} (among : imported ∈ job.imports) {path : List String}
    (found : imported.path = .ok path) :
    plan.Provides job.place.sourceRoot path ∧
      path = "crate" ::
        (imported.target.place.segments ++ [imported.target.task.fileModule, imported.item]) := by
  have sound : SoundRequest plan.request :=
    planned.request_eq ▸ (soundRequest_of_check planned.checked).propagated
  have included : Includes plan.request imported.target :=
    Includes.target (planned.mem_jobs_iff.1 member) among
  have inPlan : imported.target ∈ plan.jobs := planned.mem_jobs_iff.2 included
  obtain ⟨known, sourceRoot⟩ := Import.known_of_mem among
  obtain ⟨rfl, legal⟩ := ofFileItem_eq (included.sound sound) known.isLegal_fileModule found
  obtain ⟨code, hasCode⟩ := coded _ inPlan
  refine ⟨⟨_, _, _, rfl, imported.target, inPlan, sourceRoot, rfl, rfl, ?_, code, hasCode,
    known.defines hasCode⟩, rfl⟩
  rw [components_path legal known.isLegal_fileModule, sourceRoot]

theorem exists_of_codes {request : Request}
    (h : (ofRequest request >>= fun plan => plan.jobs.mapM Job.code).isOk = true) :
    ∃ plan, ofRequest request = .ok plan ∧ ∀ job ∈ plan.jobs, ∃ file, job.code = .ok file := by
  obtain ⟨files, all⟩ := Outcome.exists_of_isOk h
  obtain ⟨plan, found, codes⟩ := Outcome.bind_eq_ok_iff.1 all
  refine ⟨plan, found, fun job member => ?_⟩
  obtain ⟨file, -, code⟩ := Outcome.exists_of_mapM codes member
  exact ⟨file, code⟩

/-- The imports of every file of a plan lead to public items of files of the same plan below the
same source root, and every shared type and marking trait that no selection names is imported by
another file. -/
theorem imports_closed {request : Request} {plan : Plan} (h : ofRequest request = .ok plan)
    (coded : ∀ job ∈ plan.jobs, ∃ file, job.code = .ok file) :
    (∀ job ∈ plan.jobs, ∀ file, job.code = .ok file →
      ∃ paths, job.Imports file paths ∧
        ∀ path ∈ paths, plan.Provides job.place.sourceRoot path) ∧
    ∀ job ∈ plan.jobs, IsShared job.task → ¬ Selects plan.request job →
      ∃ importer ∈ plan.jobs, importer ≠ job ∧
        importer.place.sourceRoot = job.place.sourceRoot ∧
        ∃ file paths item, importer.code = .ok file ∧ importer.Imports file paths ∧
          "crate" :: (job.place.segments ++ [job.task.fileModule, item]) ∈ paths := by
  have planned := planned_of_ofRequest h
  have resolved : ∀ (job : Job) (file : File), job.code = .ok file →
      ∃ paths, job.Imports file paths ∧ job.imports.mapM Import.path = .ok paths := by
    intro job file code
    obtain ⟨own, types, outside, paths, related, uses, fromOutside⟩ := Job.hasImports_of_code code
    have found := Outcome.mapM_eq_ok_iff.2 related
    refine ⟨paths, ⟨outside, own, uses, fromOutside, fun path inside => ?_, types⟩, found⟩
    obtain ⟨imported, -, leads⟩ := Outcome.mem_of_mapM found inside
    exact head?_of_path leads
  refine ⟨fun job member file code => ?_, fun job member shared unselected => ?_⟩
  · obtain ⟨paths, imports, found⟩ := resolved job file code
    refine ⟨paths, imports, fun path inside => ?_⟩
    obtain ⟨imported, among, leads⟩ := Outcome.mem_of_mapM found inside
    exact (planned.provides coded member among leads).1
  · obtain ⟨importer, included, other, imported, among, rfl⟩ :=
      (planned.mem_jobs_iff.1 member).importer shared unselected
    have inPlan : importer ∈ plan.jobs := planned.mem_jobs_iff.2 included
    obtain ⟨file, code⟩ := coded importer inPlan
    obtain ⟨paths, imports, found⟩ := resolved importer file code
    obtain ⟨path, inside, leads⟩ := Outcome.exists_of_mapM found among
    have along := (planned.provides coded inPlan among leads).2
    exact ⟨importer, inPlan, other, (Import.known_of_mem among).2.symm, file, paths, imported.item,
      code, imports, along ▸ inside⟩

/-- A record with two fields beside the duality of two slots. -/
def recordBesideDuality : Request :=
  let number : TypeRef := .mk "i32" "" .concrete [] .plain
  { Request.empty with
    dualities := some (.single 2 Location.anywhere)
    records := [((Record.new "Point").withField (.new "x" number)).withField (.new "y" number)] }

theorem imports_closed_recordBesideDuality :
    ∃ plan, ofRequest recordBesideDuality = .ok plan ∧
      (∀ job ∈ plan.jobs, ∃ file, job.code = .ok file) ∧
      (∀ job ∈ plan.jobs, ∀ file, job.code = .ok file →
        ∃ paths, job.Imports file paths ∧
          ∀ path ∈ paths, plan.Provides job.place.sourceRoot path) ∧
      ∀ job ∈ plan.jobs, IsShared job.task → ¬ Selects plan.request job →
        ∃ importer ∈ plan.jobs, importer ≠ job ∧
          importer.place.sourceRoot = job.place.sourceRoot ∧
          ∃ file paths item, importer.code = .ok file ∧ importer.Imports file paths ∧
            "crate" :: (job.place.segments ++ [job.task.fileModule, item]) ∈ paths := by
  have codes : (ofRequest recordBesideDuality >>= fun plan => plan.jobs.mapM Job.code).isOk := by
    simp only [ofRequest, allJobs, familyJobs, selected, Selection.simplify,
      Ordered.sortedSet_eq_foldr]
    decide +kernel
  obtain ⟨plan, found, coded⟩ := exists_of_codes codes
  exact ⟨plan, found, coded, imports_closed found coded⟩

end Plan

end Slotwise
